/-
ScriptLang.Token.Listing — tokens written down, one to a line.

The plain listing shows kind, lexeme and literal, with `null` for a missing
literal. The JSON listing is an object with the four fields of a token in a
fixed order and without blanks.

A number literal is written in two ways. The plain listing gives a whole
number below 10^15 one zero after the point and drops the sign of a zero;
every other number is written in plain positional form. The JSON listing
writes the number by JSON's own layout, positional while the power of ten of
the first digit is between -5 and 15, and `null` for a number that JSON cannot
express.
-/
import ScriptLang.Decimal.Layout
import ScriptLang.Text.Quoted
import ScriptLang.Token

namespace ScriptLang

open Decimal (Layout wholeWithPoint)

/-! ## 1. Plain listing -/

/-- The text of a number in the plain listing. -/
def Literal.numberText (x : Float) : String :=
  match Decimal.whole? x with
  | some (negative, n) =>
    if n < Nat.pow 10 15 then wholeWithPoint (negative && n != 0) n
    else Layout.plain.write x
  | none => Layout.plain.write x

/-- The text of a literal in the plain listing. A string shows its characters as they are. -/
def Literal.listing : Literal → String
  | .number x => Literal.numberText x
  | .text s => s

/-- One line of the plain listing. -/
def Token.listing (t : Token) : String :=
  t.kind.name ++ " " ++ t.lexeme ++ " " ++ (t.literal.map Literal.listing).getD "null"

/-! ## 2. JSON listing -/

/-- Numbers in JSON. -/
def Token.jsonNumber : Layout where
  tie := .even
  positional := some (-5, 15)
  pointZero := true
  notANumber := "null"
  infinity _ := "null"

/-- A literal in JSON: an object with one field that says what the literal is. -/
def Literal.json : Literal → String
  | .number x => "\x7b\"Number\":" ++ Token.jsonNumber.write x ++ "\x7d"
  | .text s => "\x7b\"Str\":" ++ Text.Quoted.quote Text.Quoted.json s ++ "\x7d"

/-- One line of the JSON listing. -/
def Token.json (t : Token) : String :=
  "\x7b\"token_type\":" ++ Text.Quoted.quote Text.Quoted.json t.kind.name
    ++ ",\"lexeme\":" ++ Text.Quoted.quote Text.Quoted.json t.lexeme
    ++ ",\"literal\":" ++ (t.literal.map Literal.json).getD "null"
    ++ ",\"line\":" ++ toString t.line ++ "\x7d"

end ScriptLang
