/-
ScriptLang.Text.Ranges — sets of characters given by a standard.

A property of characters is a list of closed ranges of code points, in
ascending order. All of the lists in this library are data of version 17.0 of
the Unicode standard.
-/

namespace ScriptLang.Text

/-- A set of characters, as closed ranges of code points. -/
abbrev Ranges := List (Nat × Nat)

/-- Whether a character is in a set. -/
def Ranges.has (ranges : Ranges) (c : Char) : Bool :=
  ranges.any fun range => range.1 ≤ c.toNat && c.toNat ≤ range.2

end ScriptLang.Text
