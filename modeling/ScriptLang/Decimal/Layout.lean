/-
ScriptLang.Decimal.Layout — how chosen digits are written down.

`Decimal.Shortest` decides the digits; a `Layout` decides their appearance:
which magnitudes are written with all their zeros and which with an exponent,
whether a whole number keeps a `.0`, and what stands for the numbers that have
no digits. Each kind of output owns one `Layout` value, in the module that
writes that output.
-/
import ScriptLang.Decimal.Shortest

namespace ScriptLang.Decimal

/-! ## 1. Positional and scientific text -/

/-- A run of zeros. -/
def zeros (n : Nat) : String :=
  String.ofList (List.replicate n '0')

/-- Digits with a point in their place, and no exponent. A whole number has no point. -/
def Digits.positional (d : Digits) : String :=
  let text := toString d.coefficient
  if 0 ≤ d.exponent then text ++ zeros d.exponent.toNat
  else
    let places := (-d.exponent).toNat
    let padded := (zeros (places + 1 - text.length) ++ text).toList
    let split := padded.length - places
    String.ofList (padded.take split) ++ "." ++ String.ofList (padded.drop split)

/-- The power of ten of the first digit. -/
def Digits.leading (d : Digits) : Int :=
  d.exponent + (toString d.coefficient).length - 1

/-- One digit, a point before the others, and the exponent with its sign. -/
def Digits.scientific (d : Digits) : String :=
  let text := (toString d.coefficient).toList
  let fraction := text.drop 1
  let point := if fraction.isEmpty then "" else "."
  let sign := if d.leading < 0 then "-" else "+"
  String.ofList (text.take 1) ++ point ++ String.ofList fraction ++ "e" ++ sign
    ++ toString d.leading.natAbs

/-! ## 2. Layouts -/

/-- The decisions of one number format. -/
structure Layout where
  /-- Which of two equally near shortest decimals is written. -/
  tie : Tie
  /-- Least and greatest power of ten of the first digit that is written positionally;
  without bounds everything is. -/
  positional : Option (Int × Int)
  /-- A whole number written positionally ends in `.0`. -/
  pointZero : Bool
  notANumber : String
  /-- Text of an infinity, by whether it is negative. -/
  infinity : Bool → String

/-- The digits of a finite number, without its sign. -/
def Layout.unsigned (layout : Layout) (d : Digits) : String :=
  let fits := match layout.positional with
    | none => true
    | some (least, greatest) => least ≤ d.leading && d.leading ≤ greatest
  if fits then
    d.positional ++ (if layout.pointZero && 0 ≤ d.exponent then ".0" else "")
  else d.scientific

/-- The text of a number. A negative zero keeps its sign. -/
def Layout.write (layout : Layout) (x : Float) : String :=
  match Reading.ofFloat x with
  | .notANumber => layout.notANumber
  | .infinite negative => layout.infinity negative
  | .finite negative magnitude =>
    (if negative then "-" else "") ++ layout.unsigned (magnitude.shortest layout.tie)

/-- Positional text without `.0`, `NaN`, `inf` and `-inf`: the form that listings and
outlines fall back to. -/
def Layout.plain : Layout where
  tie := .up
  positional := none
  pointZero := false
  notANumber := "NaN"
  infinity negative := if negative then "-inf" else "inf"

/-- A whole number with one zero after the point. -/
def wholeWithPoint (negative : Bool) (n : Nat) : String :=
  (if negative then "-" else "") ++ toString n ++ ".0"

end ScriptLang.Decimal
