/-
ScriptLang.Proofs.Decimal.Readback — the digits of a number read back as it.

A decimal reads back as a magnitude if it lies in the interval around it
(`Magnitude.ReadsBack`), the ends included where the significand is even. The
search compares products of natural numbers, which says the same
(`holds_commonUnit_iff`), so the shortest digits read back
(`readsBack_shortest`).

The intervals of two magnitudes have at most an end in common: they lie side by
side in the order of exponents and significands. Where two of them meet, one
of the significands is odd, and its interval does not hold its ends. So no
decimal reads back as two magnitudes (`Canonical.eq_of_readsBack`). This needs
that magnitudes are canonical, as those that are read from bits are.
-/
import Mathlib.Algebra.Order.Field.Rat
import Mathlib.Data.Nat.Cast.Field
import Mathlib.Tactic.FieldSimp
import Mathlib.Tactic.Positivity
import Mathlib.Tactic.Ring
import ScriptLang.Decimal.Layout

namespace ScriptLang.Decimal

/-! ## 1. Values -/

/-- The value of a decimal. -/
def Digits.value (d : Digits) : ℚ :=
  d.coefficient * 10 ^ d.exponent

/-- The value of a magnitude. -/
def Magnitude.value (x : Magnitude) : ℚ :=
  x.significand * 2 ^ x.exponent

/-- A power of which only the positive part of the exponent is kept. -/
theorem zpow_mul_pow_toNat_neg {base : ℚ} (hbase : base ≠ 0) (e : ℤ) :
    base ^ e * base ^ (-e).toNat = base ^ e.toNat := by
  rw [← zpow_natCast, ← zpow_natCast, ← zpow_add₀ hbase]
  congr 1
  omega

/-- All decimal digits of a magnitude have its value. -/
theorem value_exact (x : Magnitude) : x.exact.value = x.value := by
  unfold Magnitude.exact Magnitude.value Digits.value
  split
  · next hle =>
    have hexponent : (2 : ℚ) ^ x.exponent = 2 ^ x.exponent.toNat := by
      rw [← zpow_natCast, Int.toNat_of_nonneg hle]
    simp [hexponent]
  · next hlt =>
    obtain ⟨n, hn⟩ : ∃ n : ℕ, x.exponent = -(n : ℤ) := ⟨(-x.exponent).toNat, by omega⟩
    have hten : (10 : ℚ) ^ n = 2 ^ n * 5 ^ n := by rw [← mul_pow]; norm_num
    simp only [hn, neg_neg, Int.toNat_natCast, Nat.pow_eq, Nat.cast_mul, Nat.cast_pow,
      Nat.cast_ofNat, zpow_neg, zpow_natCast, hten]
    field_simp

/-- A magnitude that is a natural number has its value. -/
theorem value_of_whole? {x : Magnitude} {n : Nat} (h : x.whole? = some n) : (n : ℚ) = x.value := by
  unfold Magnitude.whole? at h
  dsimp only at h
  split at h
  · next hmod =>
    cases h
    have hdvd : Nat.pow 2 (-x.exponent).toNat ∣ x.significand * Nat.pow 2 x.exponent.toNat :=
      Nat.dvd_of_mod_eq_zero hmod
    have hpos : ((Nat.pow 2 (-x.exponent).toNat : ℕ) : ℚ) ≠ 0 := by
      simp
    rw [Nat.cast_div hdvd hpos, div_eq_iff hpos, Magnitude.value, mul_assoc]
    have hpow := zpow_mul_pow_toNat_neg (two_ne_zero (α := ℚ)) x.exponent
    simp only [Nat.pow_eq, Nat.cast_mul, Nat.cast_pow, Nat.cast_ofNat, hpow]
  · cases h

/-! ## 2. Intervals -/

/-- A rational number lies in an interval, whose quarters have the given size. -/
def Interval.Contains (i : Interval) (quarter v : ℚ) : Prop :=
  if i.closed then i.low * quarter ≤ v ∧ v ≤ i.high * quarter
  else i.low * quarter < v ∧ v < i.high * quarter

/-- A rational number reads back as a magnitude. -/
def Magnitude.ReadsBack (x : Magnitude) (v : ℚ) : Prop :=
  x.interval.Contains (2 ^ (x.exponent - 2)) v

theorem quarter_pos (e : ℤ) : (0 : ℚ) < 2 ^ (e - 2) :=
  zpow_pos two_pos _

/-- Comparing products of natural numbers is comparing rational numbers. -/
theorem holds_commonUnit_iff (i : Interval) (q p : ℤ) (c : Nat) :
    i.holds (commonUnit q p).1 (commonUnit q p).2 c = true ↔
      i.Contains (2 ^ (q - 2)) (c * 10 ^ p) := by
  have htwo : (2 : ℚ) ^ (q - 2) * 2 ^ (2 - q).toNat = 2 ^ (q - 2).toNat := by
    rw [← zpow_mul_pow_toNat_neg two_ne_zero (q - 2), neg_sub]
  have hten : (10 : ℚ) ^ p * 10 ^ (-p).toNat = 10 ^ p.toNat :=
    zpow_mul_pow_toNat_neg (by norm_num) p
  have hpos : (0 : ℚ) < 2 ^ (2 - q).toNat * 10 ^ (-p).toNat := by positivity
  have hquarter : ∀ bound : Nat, ((bound * (commonUnit q p).1 : ℕ) : ℚ) =
      bound * 2 ^ (q - 2) * (2 ^ (2 - q).toNat * 10 ^ (-p).toNat) := by
    intro bound
    simp only [commonUnit, Nat.pow_eq, Nat.cast_mul, Nat.cast_pow, Nat.cast_ofNat, ← htwo]
    ring
  have hstep : ((c * (commonUnit q p).2 : ℕ) : ℚ) =
      c * 10 ^ p * (2 ^ (2 - q).toNat * 10 ^ (-p).toNat) := by
    simp only [commonUnit, Nat.pow_eq, Nat.cast_mul, Nat.cast_pow, Nat.cast_ofNat, ← hten]
    ring
  have hle : ∀ bound : Nat, bound * (commonUnit q p).1 ≤ c * (commonUnit q p).2 ↔
      (bound : ℚ) * 2 ^ (q - 2) ≤ c * 10 ^ p := fun bound => by
    rw [← Nat.cast_le (α := ℚ), hquarter, hstep, mul_le_mul_iff_of_pos_right hpos]
  have hge : ∀ bound : Nat, c * (commonUnit q p).2 ≤ bound * (commonUnit q p).1 ↔
      (c : ℚ) * 10 ^ p ≤ bound * 2 ^ (q - 2) := fun bound => by
    rw [← Nat.cast_le (α := ℚ), hquarter, hstep, mul_le_mul_iff_of_pos_right hpos]
  unfold Interval.holds Interval.Contains
  split
  · simp only [Bool.and_eq_true, decide_eq_true_eq, hle, hge]
  · simp only [Bool.and_eq_true, decide_eq_true_eq, ← not_le, hle, hge]

/-- One of the two neighbours is taken. -/
theorem Tie.pick_cases (tie : Tie) (low twiceAbove gap : Nat) :
    tie.pick low twiceAbove gap = low ∨ tie.pick low twiceAbove gap = low + 1 := by
  unfold Tie.pick
  split
  · exact .inl rfl
  · split
    · exact .inr rfl
    · cases tie with
      | up => exact .inr rfl
      | even => dsimp only; split <;> simp

/-- The neighbour that is taken lies in the interval. -/
theorem holds_of_nearest? {tie : Tie} {i : Interval} {quarter step c : Nat}
    (h : i.nearest? tie quarter step = some c) : i.holds quarter step c = true := by
  unfold Interval.nearest? at h
  dsimp only at h
  split at h <;> cases h
  · next hbelow habove =>
    rcases tie.pick_cases (i.value * quarter / step)
      (2 * (i.value * quarter - i.value * quarter / step * step)) step with hpick | hpick <;>
        rwa [hpick]
  · assumption
  · assumption

/-- What the search finds reads back. -/
theorem readsBack_of_searchFrom {tie : Tie} {x : Magnitude} {steps : Nat} {p : ℤ} {d : Digits}
    (h : searchFrom tie x steps p = some d) : x.ReadsBack d.value := by
  induction steps generalizing p with
  | zero => cases h
  | succ steps ih =>
    rw [searchFrom] at h
    split at h
    next quarter step hunit =>
    split at h
    · next c hnearest =>
      cases h
      have hholds := holds_of_nearest? hnearest
      rw [show quarter = (commonUnit x.exponent p).1 by rw [hunit],
        show step = (commonUnit x.exponent p).2 by rw [hunit]] at hholds
      exact (holds_commonUnit_iff _ _ _ _).mp hholds
    · exact ih h

/-- A magnitude reads back as itself. -/
theorem readsBack_value (x : Magnitude) : x.ReadsBack x.value := by
  have hquarter := quarter_pos x.exponent
  have hvalue : x.value = (4 * x.significand : ℕ) * 2 ^ (x.exponent - 2) := by
    have htwo : (2 : ℚ) ^ x.exponent = 2 ^ (x.exponent - 2) * 4 := by
      rw [show (4 : ℚ) = 2 ^ (2 : ℤ) by norm_num, ← zpow_add₀ two_ne_zero]
      congr 1
      omega
    rw [Magnitude.value, htwo]
    push_cast
    ring
  have hhigh : ((4 * x.significand : ℕ) : ℚ) < (x.interval.high : ℕ) := by
    refine Nat.cast_lt.mpr ?_
    simp only [Magnitude.interval]
    omega
  have habove := mul_lt_mul_of_pos_right hhigh hquarter
  rw [Magnitude.ReadsBack, Interval.Contains, hvalue]
  split
  · have hlow : ((x.interval.low : ℕ) : ℚ) ≤ (4 * x.significand : ℕ) :=
      Nat.cast_le.mpr (Nat.sub_le _ _)
    exact ⟨mul_le_mul_of_nonneg_right hlow hquarter.le, habove.le⟩
  · next hopen =>
    -- an odd significand is not zero, so the interval begins below it
    have hlow : ((x.interval.low : ℕ) : ℚ) < (4 * x.significand : ℕ) := by
      refine Nat.cast_lt.mpr ?_
      simp only [Magnitude.interval, decide_eq_true_eq] at hopen ⊢
      split <;> omega
    exact ⟨mul_lt_mul_of_pos_right hlow hquarter, habove⟩

/-- The shortest digits of a magnitude read back as it. -/
theorem readsBack_shortest (tie : Tie) (x : Magnitude) : x.ReadsBack (x.shortest tie).value := by
  unfold Magnitude.shortest
  split
  · next hzero =>
    have hvalue : (⟨0, 0⟩ : Digits).value = x.value := by
      simp [Digits.value, Magnitude.value, hzero]
    rw [hvalue]
    exact readsBack_value x
  · cases hsearch : searchFrom tie x 20 x.ceilingExponent with
    | some d => exact readsBack_of_searchFrom hsearch
    | none =>
      rw [Option.getD_none, value_exact]
      exact readsBack_value x

/-! ## 3. Magnitudes side by side -/

/-- A magnitude as it is read from bits: the significand has fifty-three bits, the first of which is
zero only at the least exponent, and the gap below is narrow at the other powers of two. -/
structure Magnitude.Canonical (x : Magnitude) : Prop where
  least : -1074 ≤ x.exponent
  lt : x.significand < 2 ^ 53
  normal : -1074 < x.exponent → 2 ^ 52 ≤ x.significand
  narrow : x.narrowBelow = true ↔ x.significand = 2 ^ 52 ∧ -1074 < x.exponent

/-- A number in two intervals lies below the end of the one and above the start of the other. -/
theorem Interval.Contains.ends {i j : Interval} {quarter v : ℚ} (hquarter : 0 < quarter) (k : Nat)
    (hi : i.Contains quarter v) (hj : j.Contains (2 ^ k * quarter) v) :
    j.low * 2 ^ k ≤ i.high ∧ (i.closed = false ∨ j.closed = false → j.low * 2 ^ k < i.high) := by
  have hlow : ((j.low * 2 ^ k : ℕ) : ℚ) * quarter = j.low * (2 ^ k * quarter) := by
    push_cast
    ring
  unfold Interval.Contains at hi hj
  have hweak : v ≤ i.high * quarter ∧ j.low * (2 ^ k * quarter) ≤ v := by
    constructor
    · split at hi
      · exact hi.2
      · exact hi.2.le
    · split at hj
      · exact hj.1
      · exact hj.1.le
  constructor
  · have hboth := hweak.2.trans hweak.1
    rw [← hlow, mul_le_mul_iff_of_pos_right hquarter] at hboth
    exact_mod_cast hboth
  · intro hopen
    have hboth : j.low * (2 ^ k * quarter) < i.high * quarter := by
      rcases hopen with hopen | hopen
      · rw [hopen] at hi
        exact lt_of_le_of_lt hweak.2 hi.2
      · rw [hopen] at hj
        exact lt_of_lt_of_le hj.1 hweak.1
    rw [← hlow, mul_lt_mul_iff_of_pos_right hquarter] at hboth
    exact_mod_cast hboth

namespace Magnitude.Canonical

variable {x y : Magnitude} {v : ℚ}

/-- Of two magnitudes with one exponent, the interval of the smaller ends where that of the larger
starts, or before. -/
theorem not_readsBack_of_significand_lt (hexponent : x.exponent = y.exponent)
    (hlt : x.significand < y.significand) (hx : x.ReadsBack v) (hy : y.ReadsBack v) : False := by
  rw [ReadsBack, ← hexponent, ← one_mul (2 ^ (x.exponent - 2) : ℚ), ← pow_zero 2] at hy
  obtain ⟨hle, hopen⟩ := hx.ends (quarter_pos _) 0 hy
  simp only [interval, pow_zero, mul_one, decide_eq_false_iff_not] at hle hopen
  -- they meet only if they are neighbours, and one of two neighbours is odd
  cases hnarrow : y.narrowBelow <;>
    simp only [hnarrow, if_true, if_false, Bool.false_eq_true] at hle hopen <;> omega

/-- Of two magnitudes with different exponents, the same. -/
theorem not_readsBack_of_exponent_lt (hx : x.Canonical) (hy : y.Canonical)
    (hlt : x.exponent < y.exponent) (hreads : x.ReadsBack v) (hreads' : y.ReadsBack v) : False := by
  obtain ⟨k, hk⟩ : ∃ k : ℕ, y.exponent = x.exponent + (k + 1 : ℕ) :=
    ⟨(y.exponent - x.exponent - 1).toNat, by omega⟩
  have hquarter : (2 : ℚ) ^ (y.exponent - 2) = 2 ^ (k + 1) * 2 ^ (x.exponent - 2) := by
    rw [← zpow_natCast, ← zpow_add₀ two_ne_zero, hk]
    congr 1
    omega
  rw [ReadsBack, hquarter] at hreads'
  obtain ⟨hle, hopen⟩ := hreads.ends (quarter_pos _) (k + 1) hreads'
  have hhigh : x.interval.high = 4 * x.significand + 2 := rfl
  have hodd : x.significand % 2 ≠ 0 → x.interval.closed = false := fun hodd => decide_eq_false hodd
  have hleast := hx.least
  have hbound := hx.lt
  have hnormal := hy.normal (by omega)
  have hpow : y.interval.low * 2 ≤ y.interval.low * 2 ^ (k + 1) :=
    Nat.mul_le_mul_left _ (Nat.le_self_pow (by omega) 2)
  -- the least significand of a binade begins a quarter of a gap below, the others half a gap
  have hlow : 2 ^ 54 - 1 ≤ y.interval.low := by
    have hnarrow := hy.narrow
    simp only [interval]
    split
    · omega
    · next hwide =>
      have hne : y.significand ≠ 2 ^ 52 := fun heq => hwide (hnarrow.mpr ⟨heq, by omega⟩)
      omega
  by_cases hparity : x.significand % 2 = 0
  · omega
  · have hstrict := hopen (.inl (hodd hparity))
    omega

/-- No number reads back as two magnitudes. -/
theorem eq_of_readsBack (hx : x.Canonical) (hy : y.Canonical) (hreads : x.ReadsBack v)
    (hreads' : y.ReadsBack v) : x = y := by
  have hexponent : x.exponent = y.exponent := by
    rcases lt_trichotomy x.exponent y.exponent with hlt | heq | hlt
    · exact (hx.not_readsBack_of_exponent_lt hy hlt hreads hreads').elim
    · exact heq
    · exact (hy.not_readsBack_of_exponent_lt hx hlt hreads' hreads).elim
  have hsignificand : x.significand = y.significand := by
    rcases lt_trichotomy x.significand y.significand with hlt | heq | hlt
    · exact (not_readsBack_of_significand_lt hexponent hlt hreads hreads').elim
    · exact heq
    · exact (not_readsBack_of_significand_lt hexponent.symm hlt hreads' hreads).elim
  have hnarrow : x.narrowBelow = y.narrowBelow := by
    rw [Bool.eq_iff_iff, hx.narrow, hy.narrow, hexponent, hsignificand]
  cases x
  cases y
  simp only [Magnitude.mk.injEq]
  exact ⟨hsignificand, hexponent, hnarrow⟩

end Magnitude.Canonical

/-! ## 4. Numbers -/

/-- A number that is neither infinite nor none. -/
def IsFinite (x : Float) : Prop :=
  ∃ negative magnitude, Reading.ofFloat x = .finite negative magnitude

/-- The bits of a finite number are those of its sign and its magnitude. -/
theorem bits_of_finite {bits : Nat} {negative : Bool} {magnitude : Magnitude}
    (hbits : bits < 2 ^ 64) (h : Reading.ofBits bits = .finite negative magnitude) :
    magnitude.Canonical ∧ bits = (if negative then 2 ^ 63 else 0) +
      if magnitude.significand < 2 ^ 52 then magnitude.significand
      else (magnitude.exponent + 1075).toNat * 2 ^ 52 + (magnitude.significand - 2 ^ 52) := by
  unfold Reading.ofBits at h
  simp only [Nat.pow_eq] at h
  split at h
  · split at h <;> cases h
  · split at h
    · next hbiased =>
      cases h
      refine ⟨⟨Int.le_refl _, ?_, fun h => absurd h (Int.lt_irrefl _), by simp⟩, ?_⟩
      · dsimp only; omega
      · dsimp only
        split <;> split <;> simp_all <;> omega
    · next hspecial hbiased =>
      cases h
      refine ⟨⟨?_, ?_, ?_, ?_⟩, ?_⟩
      · dsimp only; omega
      · dsimp only; omega
      · dsimp only; omega
      · simp
        omega
      · dsimp only
        split <;> split <;> simp_all <;> omega

theorem toNat_toBits_inj {x y : Float} (h : x.toBits.toNat = y.toBits.toNat) : x = y := by
  obtain ⟨⟨bits, _⟩⟩ := x
  obtain ⟨⟨bits', _⟩⟩ := y
  obtain rfl : bits = bits' := UInt64.toNat_inj.mp h
  rfl

/-- A finite number is determined by its sign and its magnitude, which is canonical. -/
theorem canonical_of_finite {x : Float} {negative : Bool} {magnitude : Magnitude}
    (h : Reading.ofFloat x = .finite negative magnitude) : magnitude.Canonical :=
  (bits_of_finite x.toBits.toNat_lt h).1

theorem eq_of_finite {x y : Float} {negative : Bool} {magnitude : Magnitude}
    (hx : Reading.ofFloat x = .finite negative magnitude)
    (hy : Reading.ofFloat y = .finite negative magnitude) : x = y :=
  toNat_toBits_inj ((bits_of_finite x.toBits.toNat_lt hx).2.trans
    (bits_of_finite y.toBits.toNat_lt hy).2.symm)

end ScriptLang.Decimal
