/-
ScriptLang.Proofs.Decimal.Positional — numbers in positional form are different.

A text of digits and at most one point spells a rational number
(`plainValue`). The positional form of some digits spells their value, and so
does a whole number with one zero after its point. What is written for a finite
number is a sign and a text that spells a number that reads back as it. So two
finite numbers that are written alike have the same sign, and one number reads
back as both (`eq_of_writes`).
-/
import Mathlib.Data.List.TakeWhile
import ScriptLang.Proofs.Decimal.Readback

namespace ScriptLang.Decimal

/-! ## 1. Texts of digits and a point -/

/-- A digit or the point. -/
def IsPlain (c : Char) : Prop :=
  c.isDigit = true ∨ c = '.'

/-- The number that a text of digits and at most one point spells. -/
def plainValue (text : List Char) : ℚ :=
  Nat.ofDigitChars 10 (text.filter (· != '.')) 0 / 10 ^ (text.dropWhile (· != '.')).tail.length

section Texts

variable {ds ds' : List Char}

theorem ne_point_of_isDigit (h : ∀ c ∈ ds, c.isDigit = true) : ∀ c ∈ ds, (c != '.') = true := by
  intro c hc
  refine bne_iff_ne.mpr ?_
  rintro rfl
  exact absurd (h _ hc) (by decide)

/-- Digits alone spell a whole number. -/
theorem plainValue_of_isDigit (h : ∀ c ∈ ds, c.isDigit = true) :
    plainValue ds = Nat.ofDigitChars 10 ds 0 := by
  have hpoint := ne_point_of_isDigit h
  rw [plainValue, List.filter_eq_self.mpr hpoint, List.dropWhile_eq_nil_iff.mpr hpoint]
  simp

/-- Digits after the point divide by a power of ten. -/
theorem plainValue_append_point (h : ∀ c ∈ ds, c.isDigit = true)
    (h' : ∀ c ∈ ds', c.isDigit = true) :
    plainValue (ds ++ '.' :: ds') = Nat.ofDigitChars 10 (ds ++ ds') 0 / 10 ^ ds'.length := by
  have hpoint := ne_point_of_isDigit h
  have hpoint' := ne_point_of_isDigit h'
  have hfilter : (ds ++ '.' :: ds').filter (· != '.') = ds ++ ds' := by
    rw [List.filter_append, List.filter_cons_of_neg (by simp), List.filter_eq_self.mpr hpoint,
      List.filter_eq_self.mpr hpoint']
  have hdrop : (ds ++ '.' :: ds').dropWhile (· != '.') = '.' :: ds' := by
    rw [List.dropWhile_append_of_pos hpoint, List.dropWhile_cons_of_neg (by simp)]
  rw [plainValue, hfilter, hdrop, List.tail_cons]

theorem isDigit_of_mem_toDigits {n : Nat} {c : Char} (h : c ∈ Nat.toDigits 10 n) :
    c.isDigit = true :=
  Nat.isDigit_of_mem_toDigits (by decide) (by decide) h

theorem isDigit_of_mem_replicate {n : Nat} {c : Char} (h : c ∈ List.replicate n '0') :
    c.isDigit = true := by
  rw [List.eq_of_mem_replicate h]
  decide

end Texts

/-! ## 2. What is written -/

theorem toList_toString (n : Nat) : (toString n).toList = Nat.toDigits 10 n := by
  rw [Nat.toString_eq_repr, Nat.toList_repr]

/-- The digits of a decimal that has some of them after its point: as many zeros before the
coefficient as are needed for a digit before the point. -/
def Digits.padded (d : Digits) : List Char :=
  List.replicate ((-d.exponent).toNat + 1 - (Nat.toDigits 10 d.coefficient).length) '0' ++
    Nat.toDigits 10 d.coefficient

theorem Digits.toList_positional (d : Digits) : d.positional.toList =
    if 0 ≤ d.exponent then
      Nat.toDigits 10 d.coefficient ++ List.replicate d.exponent.toNat '0'
    else d.padded.take (d.padded.length - (-d.exponent).toNat) ++
      '.' :: d.padded.drop (d.padded.length - (-d.exponent).toNat) := by
  have hlength : (toString d.coefficient).length = (Nat.toDigits 10 d.coefficient).length := by
    rw [← String.length_toList, toList_toString]
  have hpadded : (zeros ((-d.exponent).toNat + 1 - (toString d.coefficient).length) ++
      toString d.coefficient).toList = d.padded := by
    rw [String.toList_append, zeros, String.toList_ofList, toList_toString, hlength, padded]
  unfold positional
  split
  · rw [String.toList_append, zeros, String.toList_ofList, toList_toString]
  · simp only [hpadded, String.toList_append, String.toList_ofList]
    simp

theorem Digits.isDigit_of_mem_padded {d : Digits} {c : Char} (h : c ∈ d.padded) :
    c.isDigit = true := by
  rcases List.mem_append.mp h with hzero | hdigit
  · exact isDigit_of_mem_replicate hzero
  · exact isDigit_of_mem_toDigits hdigit

theorem Digits.ofDigitChars_padded (d : Digits) :
    Nat.ofDigitChars 10 d.padded 0 = d.coefficient := by
  rw [padded, Nat.ofDigitChars_append, Nat.ofDigitChars_replicate_zero, Nat.mul_zero,
    Nat.ofDigitChars_ten_toDigits]

/-- The positional form of some digits spells their value. -/
theorem plainValue_positional (d : Digits) : plainValue d.positional.toList = d.value := by
  rw [d.toList_positional]
  split
  · next hle =>
    rw [plainValue_of_isDigit, Nat.ofDigitChars_append, Nat.ofDigitChars_replicate_zero,
      Nat.ofDigitChars_ten_toDigits, Digits.value]
    · have hexponent : (10 : ℚ) ^ d.exponent = 10 ^ d.exponent.toNat := by
        rw [← zpow_natCast, Int.toNat_of_nonneg hle]
      rw [hexponent]
      push_cast
      ring
    · intro c hc
      rcases List.mem_append.mp hc with hdigit | hzero
      · exact isDigit_of_mem_toDigits hdigit
      · exact isDigit_of_mem_replicate hzero
  · next hlt =>
    have hplaces : (-d.exponent).toNat ≤ d.padded.length := by
      rw [Digits.padded, List.length_append, List.length_replicate]
      omega
    have hexponent : d.exponent = -((-d.exponent).toNat : ℤ) := by omega
    rw [plainValue_append_point (fun c hc => Digits.isDigit_of_mem_padded (List.mem_of_mem_take hc))
      (fun c hc => Digits.isDigit_of_mem_padded (List.mem_of_mem_drop hc)), List.take_append_drop,
      d.ofDigitChars_padded, List.length_drop, Nat.sub_sub_self hplaces, Digits.value,
      show (10 : ℚ) ^ d.exponent = 10 ^ (-((-d.exponent).toNat : ℤ)) by rw [← hexponent], zpow_neg,
      zpow_natCast, div_eq_mul_inv]

/-- The positional form of some digits is made of digits and a point. -/
theorem isPlain_of_mem_positional {d : Digits} {c : Char} (h : c ∈ d.positional.toList) :
    IsPlain c := by
  rw [d.toList_positional] at h
  split at h
  · rcases List.mem_append.mp h with hdigit | hzero
    · exact .inl (isDigit_of_mem_toDigits hdigit)
    · exact .inl (isDigit_of_mem_replicate hzero)
  · rcases List.mem_append.mp h with hbefore | hafter
    · exact .inl (Digits.isDigit_of_mem_padded (List.mem_of_mem_take hbefore))
    · rcases List.mem_cons.mp hafter with rfl | hafter
      · exact .inr rfl
      · exact .inl (Digits.isDigit_of_mem_padded (List.mem_of_mem_drop hafter))

theorem positional_ne_nil (d : Digits) : d.positional.toList ≠ [] := by
  rw [d.toList_positional]
  split
  · simp
  · simp

/-! ## 3. Numbers -/

/-- A text is a sign and some digits with a point, and the number that these spell reads back as a
finite number. -/
def Writes (x : Float) (text : List Char) : Prop :=
  ∃ negative magnitude body, Reading.ofFloat x = .finite negative magnitude ∧
    text = (if negative then ['-'] else []) ++ body ∧ body ≠ [] ∧ (∀ c ∈ body, IsPlain c) ∧
    magnitude.ReadsBack (plainValue body)

section Numbers

variable {x y : Float} {text : List Char} {negative : Bool} {magnitude : Magnitude} {n : Nat}

theorem toList_sign (negative : Bool) :
    (if negative then "-" else "").toList = if negative then ['-'] else [] := by
  cases negative <;> rfl

/-- The plain layout writes a finite number in positional form. -/
theorem writes_plain (h : Reading.ofFloat x = .finite negative magnitude) :
    Writes x (Layout.plain.write x).toList := by
  refine ⟨negative, magnitude, (magnitude.shortest .up).positional.toList, h, ?_,
    positional_ne_nil _, fun c hc => isPlain_of_mem_positional hc, ?_⟩
  · rw [Layout.write, h, ← toList_sign]
    simp [Layout.unsigned, Layout.plain]
  · rw [plainValue_positional]
    exact readsBack_shortest .up magnitude

/-- So does the form of whole numbers with one zero after the point. -/
theorem writes_wholeWithPoint (h : whole? x = some (negative, n)) :
    Writes x (wholeWithPoint negative n).toList := by
  obtain ⟨magnitude, hfinite, hwhole⟩ : ∃ magnitude,
      Reading.ofFloat x = .finite negative magnitude ∧ magnitude.whole? = some n := by
    unfold whole? at h
    split at h
    · next hreading =>
      obtain ⟨n', hwhole, heq⟩ := Option.map_eq_some_iff.mp h
      cases heq
      exact ⟨_, hreading, hwhole⟩
    · cases h
  have hzero : ∀ c ∈ ['0'], c.isDigit = true := by simp
  have hbody : plainValue (Nat.toDigits 10 n ++ ['.', '0']) = magnitude.value := by
    rw [plainValue_append_point (fun c hc => isDigit_of_mem_toDigits hc) hzero,
      Nat.ofDigitChars_append, Nat.ofDigitChars_ten_toDigits, ← value_of_whole? hwhole]
    simp [Nat.ofDigitChars_cons]
  refine ⟨negative, magnitude, Nat.toDigits 10 n ++ ['.', '0'], hfinite, ?_, by simp, ?_, ?_⟩
  · rw [wholeWithPoint, String.toList_append, String.toList_append, toList_sign, toList_toString,
      List.append_assoc]
    rfl
  · intro c hc
    rcases List.mem_append.mp hc with hdigit | hpoint
    · exact .inl (isDigit_of_mem_toDigits hdigit)
    · rcases List.mem_cons.mp hpoint with rfl | hc
      · exact .inr rfl
      · exact .inl (hzero c hc)
  · rw [hbody]
    exact readsBack_value magnitude

/-- A sign is told from the digits after it. -/
theorem sign_append_inj {negative' : Bool} {body body' : List Char} (h : ∀ c ∈ body, IsPlain c)
    (h' : ∀ c ∈ body', IsPlain c)
    (heq : (if negative then ['-'] else []) ++ body = (if negative' then ['-'] else []) ++ body') :
    negative = negative' ∧ body = body' := by
  have hsign : ¬ IsPlain '-' := by
    rintro (hdigit | hpoint)
    · exact absurd hdigit (by decide)
    · exact absurd hpoint (by decide)
  cases negative <;> cases negative'
  · exact ⟨rfl, heq⟩
  · obtain rfl : body = '-' :: body' := heq
    exact absurd (h _ List.mem_cons_self) hsign
  · obtain rfl : body' = '-' :: body := heq.symm
    exact absurd (h' _ List.mem_cons_self) hsign
  · exact ⟨rfl, List.tail_eq_of_cons_eq heq⟩

/-- Numbers of which one text is written are equal. -/
theorem eq_of_writes (hx : Writes x text) (hy : Writes y text) : x = y := by
  obtain ⟨negative, magnitude, body, hx, rfl, -, hplain, hreads⟩ := hx
  obtain ⟨negative', magnitude', body', hy, heq, -, hplain', hreads'⟩ := hy
  obtain ⟨rfl, rfl⟩ := sign_append_inj hplain hplain' heq
  obtain rfl := (canonical_of_finite hx).eq_of_readsBack (canonical_of_finite hy) hreads hreads'
  exact eq_of_finite hx hy

end Numbers

end ScriptLang.Decimal
