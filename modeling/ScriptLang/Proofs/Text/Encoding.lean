/-
ScriptLang.Proofs.Text.Encoding — the bytes of a text, read back.

In UTF-8 a character is one byte below `80`, or a first byte from `C0` on with
continuation bytes after it. So the bytes of an ASCII character never occur
inside another one, and a class of bytes that takes or leaves each character
as a whole cuts the bytes of a text between two characters
(`takeWhile_bytesOf`).

The machine reads the bytes of a character back as that character
(`decodeFrom_utf8EncodeChar`), so a text is what its bytes decode to
(`decodeLossy_encode`). In the other direction, whatever the bytes are, the
text has no ASCII character that is not among them (`mem_of_mem_decodeFrom`).
-/
import ScriptLang.Proofs.Text.Decoding

namespace ScriptLang.Text.Utf8

open String (utf8EncodeChar)

/-! ## 1. The bytes of a text -/

/-- The bytes of some characters. -/
abbrev bytesOf (cs : List Char) : List UInt8 :=
  cs.flatMap utf8EncodeChar

theorem bytesOf_append (cs cs' : List Char) : bytesOf (cs ++ cs') = bytesOf cs ++ bytesOf cs' :=
  List.flatMap_append

theorem bytesOf_cons (c : Char) (cs : List Char) :
    bytesOf (c :: cs) = utf8EncodeChar c ++ bytesOf cs :=
  List.flatMap_cons

theorem encode_ofList (cs : List Char) : encode (String.ofList cs) = bytesOf cs := by
  rw [encode, String.toByteArray_ofList, List.utf8Encode]
  simp

theorem encode_eq_bytesOf (text : String) : encode text = bytesOf text.toList := by
  rw [← encode_ofList, String.ofList_toList]

theorem encode_append (s t : String) : encode (s ++ t) = encode s ++ encode t := by
  simp [encode_eq_bytesOf]

theorem length_encode (text : String) : (encode text).length = text.utf8ByteSize :=
  String.size_toByteArray

theorem toNat_ofNat {n : Nat} (h : n < 0x100) : (UInt8.ofNat n).toNat = n :=
  UInt8.toNat_ofNat_of_lt h

/-- A number that is not the value of a character makes the character zero. -/
theorem toNat_charOfNat (n : Nat) : (Char.ofNat n).toNat = n ∨ (Char.ofNat n).toNat = 0 := by
  by_cases hvalid : n.isValidChar
  · have hofNat : Char.ofNat n = Char.ofNatAux n hvalid := dif_pos hvalid
    rw [hofNat]
    exact .inl UInt32.toNat_ofNatLT
  · have hofNat : Char.ofNat n = '\x00' := dif_neg hvalid
    rw [hofNat]
    exact .inr rfl

/-- A character is one byte below `80`, or a first byte and continuation bytes. -/
theorem utf8EncodeChar_cases (c : Char) :
    (c.toNat < 0x80 ∧ utf8EncodeChar c = [UInt8.ofNat c.toNat]) ∨
    (0x80 ≤ c.toNat ∧ ∃ lead rest, utf8EncodeChar c = lead :: rest ∧ 0xC0 ≤ lead ∧
      ∀ b ∈ rest, 0x80 ≤ b ∧ b < 0xC0) := by
  have htail : ∀ n, 0x80 ≤ UInt8.ofNat (n % 64 + 128) ∧ UInt8.ofNat (n % 64 + 128) < 0xC0 := by
    intro n
    have hn := Nat.mod_lt n (show 0 < 64 by decide)
    simp only [UInt8.le_iff_toNat_le, UInt8.lt_iff_toNat_lt,
      toNat_ofNat (show n % 64 + 128 < 0x100 by omega)]
    have h128 : (0x80 : UInt8).toNat = 128 := rfl
    have h192 : (0xC0 : UInt8).toNat = 192 := rfl
    omega
  have hlead : ∀ n, 192 ≤ n → n < 256 → 0xC0 ≤ UInt8.ofNat n := by
    intro n hlow hhigh
    rw [UInt8.le_iff_toNat_le, toNat_ofNat hhigh]
    exact hlow
  change (c.val.toNat < 0x80 ∧ utf8EncodeChar c = [UInt8.ofNat c.val.toNat]) ∨
    (0x80 ≤ c.val.toNat ∧ _)
  have hnone : ∀ b ∈ ([] : List UInt8), 0x80 ≤ b ∧ b < 0xC0 := by simp
  unfold utf8EncodeChar
  dsimp only
  split
  · exact .inl ⟨by omega, rfl⟩
  split
  · refine .inr ⟨by omega, _, _, rfl, hlead _ (by omega) (by omega), ?_⟩
    exact List.forall_mem_cons.mpr ⟨htail _, hnone⟩
  split
  · refine .inr ⟨by omega, _, _, rfl, hlead _ (by omega) (by omega), ?_⟩
    exact List.forall_mem_cons.mpr ⟨htail _, List.forall_mem_cons.mpr ⟨htail _, hnone⟩⟩
  · refine .inr ⟨by omega, _, _, rfl, hlead _ (by omega) (by omega), ?_⟩
    exact List.forall_mem_cons.mpr ⟨htail _, List.forall_mem_cons.mpr
      ⟨htail _, List.forall_mem_cons.mpr ⟨htail _, hnone⟩⟩⟩

/-! ## 2. Reading a character back -/

section Reading

variable {p next : Progress} {b low high : UInt8} {c : Char} {n code owed : Nat}

theorem decodeFrom_complete (h : step p b = .complete c) (rest : List UInt8) :
    decodeFrom p (b :: rest) = c :: decodeFrom .between rest := by
  cases p <;> simp [decodeFrom, h]

theorem decodeFrom_more (h : step p b = .more next) (rest : List UInt8) :
    decodeFrom p (b :: rest) = decodeFrom next rest := by
  cases p <;> simp [decodeFrom, h]

/-- A byte that cannot continue a character is read again, as a first one. -/
theorem decodeFrom_refused (h : step (.inside owed low high code) b = .refuse)
    (rest : List UInt8) : decodeFrom (.inside owed low high code) (b :: rest) =
      replacement :: decodeFrom .between (b :: rest) := by
  have hbetween : step .between b = first b := rfl
  simp only [decodeFrom, h, hbetween]
  cases first b <;> rfl

/-- The last byte of a character. -/
theorem step_last (hlow : low.toNat ≤ n) (hhigh : n ≤ high.toNat) :
    step (.inside 0 low high code) (UInt8.ofNat n) =
      .complete (Char.ofNat (64 * code + (n - 0x80))) := by
  have hn := high.toNat_lt
  simp [step, UInt8.le_iff_toNat_le, Nat.mod_eq_of_lt (show n < 256 by omega), hlow, hhigh]

/-- A byte of a character before the last one. -/
theorem step_tail (hlow : low.toNat ≤ n) (hhigh : n ≤ high.toNat) :
    step (.inside (owed + 1) low high code) (UInt8.ofNat n) =
      .more (.inside owed 0x80 0xBF (64 * code + (n - 0x80))) := by
  have hn := high.toNat_lt
  simp [step, UInt8.le_iff_toNat_le, Nat.mod_eq_of_lt (show n < 256 by omega), hlow, hhigh]

/-- The first byte of a character of two bytes. -/
theorem first_two (hlow : 0xC2 ≤ n) (hhigh : n ≤ 0xDF) :
    first (UInt8.ofNat n) = .more (.inside 0 0x80 0xBF (n - 0xC0)) := by
  simp only [first, toNat_ofNat (show n < 0x100 by omega)]
  rw [if_neg (by omega), if_pos (by simp; omega)]

/-- The first byte of a character of three bytes, and what it says about the second one. -/
theorem first_three {m : Nat} (hlow : 0xE0 ≤ n) (hhigh : n ≤ 0xEF) (hm : 0x80 ≤ m) (hm' : m ≤ 0xBF)
    (hlong : n = 0xE0 → 0xA0 ≤ m) (hsurrogate : n = 0xED → m ≤ 0x9F) :
    ∃ low high : UInt8, low.toNat ≤ m ∧ m ≤ high.toNat ∧
      first (UInt8.ofNat n) = .more (.inside 1 low high (n - 0xE0)) := by
  simp only [first, toNat_ofNat (show n < 0x100 by omega)]
  rw [if_neg (by omega), if_neg (by simp; omega)]
  by_cases hE0 : n = 0xE0
  · exact ⟨0xA0, 0xBF, hlong hE0, hm', by simp [hE0]⟩
  by_cases hED : n = 0xED
  · exact ⟨0x80, 0x9F, hm, hsurrogate hED, by simp [hED]⟩
  · refine ⟨0x80, 0xBF, hm, hm', ?_⟩
    rw [if_neg hE0, if_neg hED, if_pos (by simp; omega)]

/-- The first byte of a character of four bytes, and what it says about the second one. -/
theorem first_four {m : Nat} (hlow : 0xF0 ≤ n) (hhigh : n ≤ 0xF4) (hm : 0x80 ≤ m) (hm' : m ≤ 0xBF)
    (hlong : n = 0xF0 → 0x90 ≤ m) (hbeyond : n = 0xF4 → m ≤ 0x8F) :
    ∃ low high : UInt8, low.toNat ≤ m ∧ m ≤ high.toNat ∧
      first (UInt8.ofNat n) = .more (.inside 2 low high (n - 0xF0)) := by
  simp only [first, toNat_ofNat (show n < 0x100 by omega)]
  rw [if_neg (by omega), if_neg (by simp; omega), if_neg (by omega), if_neg (by omega),
    if_neg (by simp; omega)]
  by_cases hF0 : n = 0xF0
  · exact ⟨0x90, 0xBF, hlong hF0, hm', by simp [hF0]⟩
  by_cases hF4 : n = 0xF4
  · exact ⟨0x80, 0x8F, hm, hbeyond hF4, by simp [hF4]⟩
  · refine ⟨0x80, 0xBF, hm, hm', ?_⟩
    rw [if_neg hF0, if_pos (by simp; omega)]

/-- The machine reads the bytes of a character back. -/
theorem decodeFrom_utf8EncodeChar (c : Char) (rest : List UInt8) :
    decodeFrom .between (utf8EncodeChar c ++ rest) = c :: decodeFrom .between rest := by
  have hvalid : c.val.toNat < 0xD800 ∨ 0xDFFF < c.val.toNat ∧ c.val.toNat < 0x110000 := c.valid
  have hchar : ∀ n, n = c.val.toNat → Char.ofNat n = c := by
    intro n hn
    rw [hn]
    exact Char.ofNat_toNat c
  have hhigh : (0xBF : UInt8).toNat = 191 := rfl
  have hlow : (0x80 : UInt8).toNat = 128 := rfl
  unfold utf8EncodeChar
  dsimp only
  generalize c.val.toNat = v at *
  split
  · refine decodeFrom_complete ?_ rest
    simp only [step, first, toNat_ofNat (show v < 0x100 by omega)]
    rw [if_pos (by omega), hchar v rfl]
  split
  · have hfirst := first_two (n := v / 64 % 32 + 192) (by omega) (by omega)
    rw [List.cons_append, decodeFrom_more (p := .between) hfirst]
    refine decodeFrom_complete ?_ rest
    rw [step_last (by omega) (by omega), hchar _ (by omega)]
  split
  · obtain ⟨low, high, hlow', hhigh', hfirst⟩ := first_three (n := v / 4096 % 16 + 224)
      (m := v / 64 % 64 + 128) (by omega) (by omega) (by omega) (by omega) (by omega) (by omega)
    rw [List.cons_append, decodeFrom_more (p := .between) hfirst, List.cons_append,
      decodeFrom_more (step_tail hlow' hhigh')]
    refine decodeFrom_complete ?_ rest
    rw [step_last (by omega) (by omega), hchar _ (by omega)]
  · obtain ⟨low, high, hlow', hhigh', hfirst⟩ := first_four (n := v / 262144 % 8 + 240)
      (m := v / 4096 % 64 + 128) (by omega) (by omega) (by omega) (by omega) (by omega) (by omega)
    rw [List.cons_append, decodeFrom_more (p := .between) hfirst, List.cons_append,
      decodeFrom_more (step_tail hlow' hhigh'), List.cons_append,
      decodeFrom_more (step_tail (by omega) (by omega))]
    refine decodeFrom_complete ?_ rest
    rw [step_last (by omega) (by omega), hchar _ (by omega)]

/-- A text is what its bytes decode to. -/
theorem decodeLossy_encode (text : String) : decodeLossy (encode text) = text := by
  have hchars : ∀ cs : List Char, decodeFrom .between (bytesOf cs) = cs := by
    intro cs
    induction cs with
    | nil => rfl
    | cons c cs ih => rw [bytesOf_cons, decodeFrom_utf8EncodeChar, ih]
  rw [decodeLossy, encode_eq_bytesOf, hchars, String.ofList_toList]

end Reading

/-! ## 3. ASCII characters -/

theorem toNat_ofUInt8 (b : UInt8) : (Char.ofUInt8 b).toNat = b.toNat := by
  show b.toUInt32.toNat = b.toNat
  simp

/-- An ASCII character is that of its byte. -/
theorem ofUInt8_ofNat {c : Char} (h : c.toNat < 0x80) : Char.ofUInt8 (UInt8.ofNat c.toNat) = c := by
  rw [← ofNat_toNat, toNat_ofNat (by omega), Char.ofNat_toNat]

theorem utf8EncodeChar_ofUInt8 {b : UInt8} (hb : b < 0x80) :
    utf8EncodeChar (Char.ofUInt8 b) = [b] := by
  rw [UInt8.lt_iff_toNat_lt] at hb
  rcases utf8EncodeChar_cases (Char.ofUInt8 b) with ⟨-, heq⟩ | ⟨hge, -⟩
  · rw [heq, toNat_ofUInt8, UInt8.ofNat_toNat]
  · rw [toNat_ofUInt8] at hge
    exact absurd hb (Nat.not_lt_of_le hge)

theorem mem_utf8EncodeChar_ascii {b : UInt8} (hb : b < 0x80) {c : Char} :
    b ∈ utf8EncodeChar c ↔ c = Char.ofUInt8 b := by
  constructor
  · intro h
    rcases utf8EncodeChar_cases c with ⟨hc, heq⟩ | ⟨-, lead, rest, heq, hlead, hrest⟩
    · rw [heq, List.mem_singleton] at h
      rw [h, ofUInt8_ofNat hc]
    · have hge : 0x80 ≤ b := by
        rw [heq] at h
        rcases List.mem_cons.mp h with rfl | hmem
        · exact UInt8.le_trans (by decide) hlead
        · exact (hrest b hmem).1
      simp only [UInt8.le_iff_toNat_le, UInt8.lt_iff_toNat_lt] at hge hb
      omega
  · rintro rfl
    rw [utf8EncodeChar_ofUInt8 hb]
    exact List.mem_singleton_self b

/-- ASCII bytes are the bytes of the text that they decode to. -/
theorem encode_decodeLossy {bytes : List UInt8} (h : ∀ b ∈ bytes, b < 0x80) :
    encode (decodeLossy bytes) = bytes := by
  rw [decodeLossy_ascii h, encode_ofList, bytesOf, List.flatMap_map]
  induction bytes with
  | nil => rfl
  | cons b bytes ih =>
    obtain ⟨hb, hbytes⟩ := List.forall_mem_cons.mp h
    rw [List.flatMap_cons, utf8EncodeChar_ofUInt8 hb, ih hbytes]
    rfl

/-- A text has an ASCII character exactly if its bytes have the byte. -/
theorem mem_encode_ascii {b : UInt8} (hb : b < 0x80) {text : String} :
    b ∈ encode text ↔ Char.ofUInt8 b ∈ text.toList := by
  simp [encode_eq_bytesOf, List.mem_flatMap, mem_utf8EncodeChar_ascii hb]

/-- A class of bytes that takes or leaves each character as a whole cuts a text between two
characters. -/
theorem takeWhile_bytesOf {p : UInt8 → Bool} {q : Char → Bool}
    (h : ∀ c, ∀ b ∈ utf8EncodeChar c, p b = q c) (cs : List Char) :
    (bytesOf cs).takeWhile p = bytesOf (cs.takeWhile q) := by
  induction cs with
  | nil => rfl
  | cons c cs ih =>
    rw [bytesOf_cons, List.takeWhile_cons]
    cases hq : q c with
    | true =>
      have hall : ∀ b ∈ utf8EncodeChar c, p b = true := fun b hb => (h c b hb).trans hq
      rw [List.takeWhile_append_of_pos hall, ih]
      simp
    | false =>
      obtain ⟨b, rest, hbytes⟩ := List.exists_cons_of_ne_nil (String.utf8EncodeChar_ne_nil (c := c))
      have hb : p b = false := (h c b (by simp [hbytes])).trans hq
      simp [hbytes, hb]

/-- A class of bytes that does not tell the bytes from `80` on apart takes or leaves each character
as a whole. -/
theorem uniform_utf8EncodeChar {p : UInt8 → Bool} (other : Bool) (h : ∀ b, 0x80 ≤ b → p b = other)
    (c : Char) : ∀ b ∈ utf8EncodeChar c,
      p b = if c.toNat < 0x80 then p (UInt8.ofNat c.toNat) else other := by
  intro b hb
  rcases utf8EncodeChar_cases c with ⟨hc, heq⟩ | ⟨hc, lead, rest, heq, hlead, hrest⟩
  · rw [heq, List.mem_singleton] at hb
    rw [if_pos hc, hb]
  · rw [if_neg (Nat.not_lt_of_le hc)]
    rw [heq] at hb
    rcases List.mem_cons.mp hb with rfl | hmem
    · exact h _ (UInt8.le_trans (by decide) hlead)
    · exact h b (hrest b hmem).1

/-- Inside a character, what has been read so far is too much for an ASCII character. -/
def Progress.Wide : Progress → Prop
  | .between => True
  | .inside owed low _ code => 2 ≤ code ∨ 0 < owed ∧ 2 ≤ 64 * code + (low.toNat - 0x80)

section Wide

variable {p next : Progress} {b : UInt8} {c : Char}

theorem Progress.wide_first (h : first b = .more next) : next.Wide := by
  simp only [first] at h
  split at h
  · cases h
  repeat
    split at h
    · cases h
      simp_all [Progress.Wide]
      try omega
  cases h

theorem Progress.wide_step (hp : p.Wide) (h : step p b = .more next) : next.Wide := by
  cases p with
  | between => exact Progress.wide_first h
  | inside owed low high code =>
    simp only [step] at h
    split at h
    · rename_i hrange
      have hlow : low.toNat ≤ b.toNat := by
        simp only [Bool.and_eq_true, decide_eq_true_eq, UInt8.le_iff_toNat_le] at hrange
        exact hrange.1
      cases owed with
      | zero => cases h
      | succ owed =>
        cases h
        simp only [Progress.Wide] at hp ⊢
        omega
    · cases h

/-- A byte that completes an ASCII character is that character. -/
theorem eq_of_step_complete (hp : p.Wide) (h : step p b = .complete c) (hpos : 0 < c.toNat)
    (hascii : c.toNat < 0x80) : b = UInt8.ofNat c.toNat := by
  cases p with
  | between =>
    simp only [step, first] at h
    split at h
    · obtain rfl := Step.complete.inj h
      rcases toNat_charOfNat b.toNat with hvalue | hvalue
      · rw [hvalue, UInt8.ofNat_toNat]
      · omega
    · repeat
        split at h
        · cases h
      cases h
  | inside owed low high code =>
    simp only [step] at h
    split at h
    · rename_i hrange
      have hlow : low.toNat ≤ b.toNat := by
        simp only [Bool.and_eq_true, decide_eq_true_eq, UInt8.le_iff_toNat_le] at hrange
        exact hrange.1
      cases owed with
      | zero =>
        -- the character is too large, or not one at all
        obtain rfl := Step.complete.inj h
        have hvalue := toNat_charOfNat (64 * code + (b.toNat - 0x80))
        simp only [Progress.Wide] at hp
        omega
      | succ owed => cases h
    · cases h

/-- An ASCII character that is decoded is among the bytes. -/
theorem mem_of_mem_decodeFrom (hpos : 0 < c.toNat) (hascii : c.toNat < 0x80) :
    ∀ (bytes : List UInt8) (p : Progress), p.Wide → c ∈ decodeFrom p bytes →
      UInt8.ofNat c.toNat ∈ bytes
  | [], .between, _, h => by simp [decodeFrom] at h
  | [], .inside .., _, h => by
      have hc : c = replacement := by simpa [decodeFrom] using h
      exact absurd hascii (by rw [hc]; decide)
  | b :: bytes, p, hp, h => by
      have ih := mem_of_mem_decodeFrom hpos hascii bytes
      have hreplacement : c ≠ replacement := by
        rintro rfl
        exact absurd hascii (by decide)
      have hread : ∀ p : Progress, p.Wide → step p b ≠ .refuse → c ∈ decodeFrom p (b :: bytes) →
          UInt8.ofNat c.toNat ∈ b :: bytes := by
        intro p hp hrefuse h
        cases hstep : step p b with
        | complete c' =>
          rw [decodeFrom_complete hstep] at h
          rcases List.mem_cons.mp h with rfl | hrest
          · rw [← eq_of_step_complete hp hstep hpos hascii]
            exact List.mem_cons_self
          · exact List.mem_cons_of_mem _ (ih .between trivial hrest)
        | more next =>
          rw [decodeFrom_more hstep] at h
          exact List.mem_cons_of_mem _ (ih next (Progress.wide_step hp hstep) h)
        | refuse => exact absurd hstep hrefuse
      have hfirst : c ∈ decodeFrom .between (b :: bytes) → UInt8.ofNat c.toNat ∈ b :: bytes := by
        intro h
        by_cases hrefuse : step .between b = .refuse
        · have hrest : c ∈ decodeFrom .between bytes := by
            simpa [decodeFrom, hrefuse, hreplacement] using h
          exact List.mem_cons_of_mem _ (ih .between trivial hrest)
        · exact hread .between trivial hrefuse h
      by_cases hrefuse : step p b = .refuse
      · cases p with
        | between => exact hfirst h
        | inside owed low high code =>
          -- The byte is read again, as the first one of a character.
          rw [decodeFrom_refused hrefuse] at h
          exact hfirst ((List.mem_cons.mp h).resolve_left hreplacement)
      · exact hread p hp hrefuse h

end Wide

end ScriptLang.Text.Utf8
