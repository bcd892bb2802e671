/-
ScriptLang.Decimal.Numeral — the number a source numeral denotes.

A numeral is a run of ASCII digits, optionally followed by a point and more
digits. Its value is the rational number it spells, rounded once to the
nearest binary64 number. The bytes are read as one whole number with the
point left out, and the rounding is done by `Float.ofScientific` on that whole
number and the count of digits after the point.
-/

namespace ScriptLang.Decimal

/-- The ASCII digits `0` to `9`. -/
def isDigit (b : UInt8) : Bool :=
  48 ≤ b && b ≤ 57

/-- The whole number that a run of digits spells, most significant digit first. -/
def natOfDigits (digits : List UInt8) : Nat :=
  digits.foldl (fun n d => 10 * n + (d.toNat - 48)) 0

/-- The number spelled by the digits before and after the point. -/
def numeral (integral fraction : List UInt8) : Float :=
  Float.ofScientific (natOfDigits (integral ++ fraction)) true fraction.length

end ScriptLang.Decimal
