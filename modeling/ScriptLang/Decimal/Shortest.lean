/-
ScriptLang.Decimal.Shortest — the fewest decimal digits that read back.

Among the decimals that round to a given magnitude, `shortest` takes the one
with the fewest digits, and of those the nearest. The search is stated on
grids: the multiples of `10^p` for one `p` form a grid, a coarser grid means
fewer digits, and the walk goes from a grid that is certainly too coarse down
to the first one that has a point in the interval of decimals that read back.
On that grid only the two neighbours of the value can be the answer: if any
point of the grid lies in the interval, one of those two does.

All comparisons are between products of natural numbers. To avoid halves the
interval is kept in quarters of the binary unit, so that both ends, half a gap
or a quarter of a gap away, are whole.

An exact tie between the two neighbours is a matter of the format that asks,
so the rule for ties is an argument.
-/
import ScriptLang.Decimal.Binary

namespace ScriptLang.Decimal

/-! ## 1. Decimals -/

/-- The decimal `coefficient · 10 ^ exponent`. -/
structure Digits where
  coefficient : Nat
  exponent : Int
  deriving DecidableEq, Repr

/-- Which of two equally near neighbours is taken. -/
inductive Tie where
  | up
  | even
  deriving DecidableEq, Repr

/-- Picks between `low` and `low + 1`, given twice the distance of the value above `low` and
the distance between the two. -/
def Tie.pick (tie : Tie) (low twiceAbove gap : Nat) : Nat :=
  if twiceAbove < gap then low
  else if gap < twiceAbove then low + 1
  else match tie with
    | .up => low + 1
    | .even => if low % 2 = 0 then low else low + 1

/-! ## 2. The interval that reads back -/

/-- The decimals that read back as a magnitude, measured in quarters of its binary unit. -/
structure Interval where
  low : Nat
  value : Nat
  high : Nat
  /-- The ends themselves read back: rounding goes to the even significand. -/
  closed : Bool
  deriving DecidableEq, Repr

/-- Half a gap to each side, and a quarter of the upper gap below a binade's first number. -/
def Magnitude.interval (x : Magnitude) : Interval where
  low := 4 * x.significand - (if x.narrowBelow then 1 else 2)
  value := 4 * x.significand
  high := 4 * x.significand + 2
  closed := x.significand % 2 = 0

/-- Whether the point `c` of a grid lies in the interval, when one grid step is `step` and
one interval quarter is `quarter` of a common unit. -/
def Interval.holds (i : Interval) (quarter step c : Nat) : Bool :=
  if i.closed then
    i.low * quarter ≤ c * step && c * step ≤ i.high * quarter
  else
    i.low * quarter < c * step && c * step < i.high * quarter

/-- The nearest of the value's two neighbours on a grid that read back, if one does. -/
def Interval.nearest? (tie : Tie) (i : Interval) (quarter step : Nat) : Option Nat :=
  let below := i.value * quarter / step
  let above := below + 1
  match i.holds quarter step below, i.holds quarter step above with
  | true, true => some (tie.pick below (2 * (i.value * quarter - below * step)) step)
  | true, false => some below
  | false, true => some above
  | false, false => none

/-! ## 3. The search -/

/-- The grid of the multiples of `10 ^ p`, in a unit common with the quarters of `2 ^ q`:
the pair (quarter, step). -/
def commonUnit (q p : Int) : Nat × Nat :=
  (Nat.pow 2 (q - 2).toNat * Nat.pow 10 (-p).toNat,
    Nat.pow 2 (2 - q).toNat * Nat.pow 10 p.toNat)

/-- Walks from the grid of `10 ^ p` towards finer ones, at most `steps` grids. -/
def searchFrom (tie : Tie) (x : Magnitude) : Nat → Int → Option Digits
  | 0, _ => none
  | steps + 1, p =>
    let (quarter, step) := commonUnit x.exponent p
    match x.interval.nearest? tie quarter step with
    | some c => some ⟨c, p⟩
    | none => searchFrom tie x steps (p - 1)

/-- All decimal digits of a magnitude. -/
def Magnitude.exact (x : Magnitude) : Digits :=
  if 0 ≤ x.exponent then ⟨x.significand * Nat.pow 2 x.exponent.toNat, 0⟩
  else ⟨x.significand * Nat.pow 5 (-x.exponent).toNat, x.exponent⟩

/-- A power of ten above the magnitude: `2 ^ b` is below `10 ^ (0.30103 · b)` rounded up. -/
def Magnitude.ceilingExponent (x : Magnitude) : Int :=
  (x.significand.log2 + 1 + x.exponent) * 30103 / 100000 + 1

/-- The fewest digits that read back, and the nearest such decimal. Seventeen digits always
suffice, so the exact value after twenty grids is never needed. -/
def Magnitude.shortest (tie : Tie) (x : Magnitude) : Digits :=
  if x.significand = 0 then ⟨0, 0⟩
  else (searchFrom tie x 20 x.ceilingExponent).getD x.exact

end ScriptLang.Decimal
