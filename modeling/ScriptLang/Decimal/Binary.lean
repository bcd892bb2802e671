/-
ScriptLang.Decimal.Binary — a binary64 number taken apart into whole numbers.

Everything the library prints about a number is decided in exact arithmetic
on natural numbers. This module is the door: `Reading.ofFloat` splits the
sixty-four bits into sign, biased exponent and fraction, and a finite number
becomes a sign and a `Magnitude`, the pair `m`, `q` that stands for `m · 2^q`.

The reals that round to a magnitude form an interval around it. Its ends lie
half a gap away, and the gap below is only half as wide as the gap above when
`m` is the least significand of its binade; `Magnitude.narrowBelow` records
that, so the printer never has to look at the bits again.
-/

namespace ScriptLang.Decimal

/-! ## 1. Magnitudes -/

/-- The absolute value of a finite binary64 number: `significand · 2 ^ exponent`. -/
structure Magnitude where
  significand : Nat
  exponent : Int
  /-- The next smaller number is half as far away as the next larger one. -/
  narrowBelow : Bool
  deriving DecidableEq, Repr

/-- The value as a natural number, when it is one. One of the two powers of two is always
one. -/
def Magnitude.whole? (x : Magnitude) : Option Nat :=
  let numerator := x.significand * Nat.pow 2 x.exponent.toNat
  let denominator := Nat.pow 2 (-x.exponent).toNat
  if numerator % denominator = 0 then some (numerator / denominator) else none

/-! ## 2. Reading the bits -/

/-- What the bits of a binary64 number say. -/
inductive Reading where
  | notANumber
  | infinite (negative : Bool)
  | finite (negative : Bool) (magnitude : Magnitude)
  deriving DecidableEq, Repr

/-- Fields of a bit pattern: one sign bit, eleven exponent bits, fifty-two fraction bits. A
biased exponent of zero means that the leading bit of the significand is zero. -/
def Reading.ofBits (bits : Nat) : Reading :=
  let hiddenBit := Nat.pow 2 52
  let negative : Bool := bits / Nat.pow 2 63 % 2 = 1
  let biased : Nat := bits / hiddenBit % 2048
  let fraction : Nat := bits % hiddenBit
  if biased = 2047 then
    if fraction = 0 then .infinite negative else .notANumber
  else if biased = 0 then
    .finite negative ⟨fraction, -1074, false⟩
  else
    .finite negative ⟨hiddenBit + fraction, biased - 1075, fraction = 0 && biased != 1⟩

/-- The reading of a number. -/
def Reading.ofFloat (x : Float) : Reading :=
  .ofBits x.toBits.toNat

/-- Sign and value of a number that is finite and whole. -/
def whole? (x : Float) : Option (Bool × Nat) :=
  match Reading.ofFloat x with
  | .finite negative magnitude => magnitude.whole?.map (negative, ·)
  | _ => none

end ScriptLang.Decimal
