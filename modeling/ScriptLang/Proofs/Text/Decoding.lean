/-
ScriptLang.Proofs.Text.Decoding — lossy decoding at ASCII bytes.

No byte below `80` continues a character, so such a byte ends whatever was
being read before it, and reading starts afresh after it
(`decodeFrom_append_ascii`). Bytes between two ASCII bytes therefore decode to
the same text wherever they stand, flaws included.
-/
import ScriptLang.Text.Utf8

namespace ScriptLang.Text.Utf8

/-! ## 1. ASCII bytes and the machine -/

/-- Inside a character, the next byte is at least `80`. -/
def Progress.Beyond : Progress → Prop
  | .between => True
  | .inside _ low _ _ => 0x80 ≤ low

/-- Both ways to make a character of a byte agree. -/
theorem ofNat_toNat (b : UInt8) : Char.ofNat b.toNat = Char.ofUInt8 b := by
  have hvalid : b.toNat.isValidChar := .inl (by have := b.toNat_lt; omega)
  have hofNat : Char.ofNat b.toNat = Char.ofNatAux b.toNat hvalid := dif_pos hvalid
  rw [hofNat, ← Char.toNat_inj]
  show b.toNat = b.toUInt32.toNat
  simp

theorem first_ascii {b : UInt8} (h : b < 0x80) : first b = .complete (Char.ofUInt8 b) := by
  have hlt : b.toNat < 0x80 := UInt8.lt_iff_toNat_lt.mp h
  simp [first, hlt, ofNat_toNat]

theorem Progress.beyond_first {b : UInt8} {next : Progress} (h : first b = .more next) :
    next.Beyond := by
  simp only [first] at h
  split at h
  · cases h
  repeat
    split at h
    · cases h
      simp [Progress.Beyond]
  cases h

theorem Progress.beyond_step {p next : Progress} {b : UInt8} (h : step p b = .more next) :
    next.Beyond := by
  cases p with
  | between => exact Progress.beyond_first h
  | inside owed low high code =>
    simp only [step] at h
    split at h
    · cases owed <;> cases h
      simp [Progress.Beyond]
    · cases h

/-- An ASCII byte does not continue a character. -/
theorem step_inside_ascii {b : UInt8} (h : b < 0x80) {owed : Nat} {low high : UInt8} {code : Nat}
    (hlow : 0x80 ≤ low) : step (.inside owed low high code) b = .refuse := by
  have hlt : ¬ low ≤ b := by
    simp only [UInt8.lt_iff_toNat_lt, UInt8.le_iff_toNat_le] at *
    omega
  simp [step, hlt]

/-! ## 2. Texts -/

/-- An ASCII byte splits a text in two. -/
theorem decodeFrom_append_ascii {b : UInt8} (hb : b < 0x80) (rest : List UInt8) :
    ∀ (bytes : List UInt8) (p : Progress), p.Beyond →
      decodeFrom p (bytes ++ b :: rest) =
        decodeFrom p bytes ++ Char.ofUInt8 b :: decodeFrom .between rest
  | [], .between, _ => by simp [decodeFrom, step, first_ascii hb]
  | [], .inside owed low high code, hp => by
      simp [decodeFrom, step_inside_ascii hb hp, first_ascii hb]
  | b' :: bytes, .between, _ => by
      have ih := decodeFrom_append_ascii hb rest bytes
      rw [List.cons_append]
      simp only [decodeFrom]
      cases hstep : step .between b' with
      | complete c => simp [ih .between trivial]
      | more next => simp [ih next (Progress.beyond_step hstep)]
      | refuse => simp [ih .between trivial]
  | b' :: bytes, .inside owed low high code, _ => by
      have ih := decodeFrom_append_ascii hb rest bytes
      rw [List.cons_append]
      simp only [decodeFrom]
      cases hstep : step (.inside owed low high code) b' with
      | complete c => simp [ih .between trivial]
      | more next => simp [ih next (Progress.beyond_step hstep)]
      | refuse =>
        -- The byte is read again, as the first one of a character.
        cases hfirst : first b' with
        | complete c => simp [ih .between trivial]
        | more next => simp [ih next (Progress.beyond_first hfirst)]
        | refuse => simp [ih .between trivial]

theorem decodeFrom_ascii : ∀ bytes : List UInt8, (∀ b ∈ bytes, b < 0x80) →
    decodeFrom .between bytes = bytes.map Char.ofUInt8
  | [], _ => rfl
  | b :: bytes, h => by
      obtain ⟨hb, hbytes⟩ := List.forall_mem_cons.mp h
      have htail := decodeFrom_ascii bytes hbytes
      simp [decodeFrom, step, first_ascii hb, htail]

theorem decodeLossy_ascii {bytes : List UInt8} (h : ∀ b ∈ bytes, b < 0x80) :
    decodeLossy bytes = String.ofList (bytes.map Char.ofUInt8) := by
  rw [decodeLossy, decodeFrom_ascii bytes h]

/-- Bytes between two equal ASCII bytes decode as they do alone. -/
theorem decodeLossy_enclosed {b : UInt8} (hb : b < 0x80) (body : List UInt8) :
    decodeLossy (b :: body ++ [b]) =
      String.singleton (Char.ofUInt8 b) ++ decodeLossy body ++
        String.singleton (Char.ofUInt8 b) := by
  have hbody := decodeFrom_append_ascii hb [] body .between trivial
  have hall := decodeFrom_append_ascii hb (body ++ [b]) [] .between trivial
  have hnil : decodeFrom .between [] = [] := rfl
  rw [List.nil_append, hnil, List.nil_append, hbody, hnil] at hall
  rw [decodeLossy, List.cons_append, hall, ← String.toList_inj]
  simp [decodeLossy]

end ScriptLang.Text.Utf8
