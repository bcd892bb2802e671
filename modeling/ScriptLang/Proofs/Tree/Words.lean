/-
ScriptLang.Proofs.Tree.Words — what is written tells the word.

At the leaves of a tree are words. A token of a source is determined by its
text, up to its line: read again, the text gives the token back
(`Token.Genuine.erase_eq`). Punctuation, operators and reserved words have the
text of their kind. A finite number is determined by what is written for it
(`Proofs.Decimal.Positional`), and so is every constant without a text
(`Constant.eq_of_outline`). A name is none of the words for constants and begins
with no digit and no sign, so it is not taken for a constant.
-/
import Mathlib.Data.FinEnum
import ScriptLang.Proofs.Decimal.Positional
import ScriptLang.Proofs.Grammar.Strata
import ScriptLang.Proofs.Token.Rescanning
import ScriptLang.Proofs.Tree.Forms

namespace ScriptLang

open Decimal (IsFinite IsPlain Writes)
open Text.Utf8 (decodeLossy)

/-! ## 1. Tokens of a source -/

/-- A token as sources have it: its text is one of its kind, and read again it gives the token. -/
structure Token.Genuine (t : Token) : Prop where
  rule : ∃ bytes, TokenRule t.kind bytes ∧ t.lexeme = decodeLossy bytes
  word : t.kind ∈ marks ∨ t.kind = .ofWord t.lexeme
  rescans : Rescans t.kind t.literal t.lexeme
  literate : Literate t.kind t.literal

theorem genuine_of_mem_wordsOf {source : List UInt8} {t : Token} (h : t ∈ wordsOf source) :
    t.Genuine where
  rule := forall_mem_wordsOf (P := fun kind _ text => ∃ bytes, TokenRule kind bytes ∧
      text = decodeLossy bytes)
    (fun _ _ _ _ hlexeme => ⟨_, tokenRule_recognise (Prod.ext hlexeme rfl), rfl⟩) h
  word := ofWord_of_mem_wordsOf h
  rescans := rescans_of_mem_wordsOf h
  literate := forall_mem_wordsOf (P := fun kind literal _ => Literate kind literal)
    (fun _ _ _ _ hlexeme => literate_of_recognise (Prod.ext hlexeme rfl)) h

/-- The tokens with one text, whatever comes before and after them. -/
def Kind.texts : List (String × Kind) := Kind.fixed ++ Kind.reserved

theorem decodeLossy_spelling_texts :
    ∀ entry ∈ Kind.texts, decodeLossy (spelling entry.1) = entry.1 := by
  decide +kernel

theorem texts_inj : ∀ entry ∈ Kind.texts, ∀ entry' ∈ Kind.texts, entry.2 = entry'.2 →
    entry.1 = entry'.1 := by
  decide

/-- A character of a word is no separator. -/
theorem not_mem_separators_of_isWordPart {b : UInt8} (h : isWordPart b) :
    Char.ofUInt8 b ∉ separators := by
  intro hmem
  simp only [separators, List.mem_cons, List.not_mem_nil, or_false] at hmem
  rcases hmem with hc | hc | hc <;> rw [eq_ascii_of_ofUInt8 hc] at h <;> exact absurd h (by decide)

/-- A number begins with a digit, a point or a sign. -/
def beginsNumber (text : String) : Bool :=
  text.toList.head?.any fun c => c.isDigit || c == '.' || c == '-'

/-- The first character of a word is none that a number begins with. -/
theorem not_beginsNumber_of_isWordStart : ∀ b : UInt8, isWordStart b →
    ((Char.ofUInt8 b).isDigit || Char.ofUInt8 b == '.' || Char.ofUInt8 b == '-') = false := by
  decide +kernel

namespace Token.Genuine

variable {t t' : Token}

/-- Tokens with one text are the same but for their lines. -/
theorem erase_eq (h : t.Genuine) (h' : t'.Genuine) (hlexeme : t.lexeme = t'.lexeme) :
    Relabelling.erase.token t = Relabelling.erase.token t' := by
  obtain ⟨b, rest, hbytes, hrecognise⟩ := h.rescans
  obtain ⟨b', rest', hbytes', hrecognise'⟩ := h'.rescans
  rw [hlexeme, hbytes'] at hbytes
  cases hbytes
  have hsame := (hrecognise [] (by simp [Apart])).symm.trans (hrecognise' [] (by simp [Apart]))
  simp only [Prod.mk.injEq, Lexeme.token.injEq, and_true] at hsame
  obtain ⟨kind, lexeme, literal, line⟩ := t
  obtain ⟨kind', lexeme', literal', line'⟩ := t'
  simp only [Relabelling.erase, Token.mk.injEq, and_true]
  exact ⟨hsame.1, hlexeme, hsame.2⟩

/-- Punctuation, operators and reserved words have the text of their kind. -/
theorem lexeme_eq (h : t.Genuine) {text : String} (htext : (text, t.kind) ∈ Kind.texts) :
    t.lexeme = text := by
  obtain ⟨bytes, hrule, hlexeme⟩ := h.rule
  generalize t.kind = kind at hrule htext
  rw [hlexeme]
  cases hrule with
  | fixed hfixed =>
    have hentry := List.mem_append_left Kind.reserved hfixed
    rw [decodeLossy_spelling_texts _ hentry]
    exact texts_inj _ hentry _ htext rfl
  | reserved hreserved =>
    have hentry := List.mem_append_right Kind.fixed hreserved
    rw [decodeLossy_spelling_texts _ hentry]
    exact texts_inj _ hentry _ htext rfl
  | identifier | whole | decimal | string =>
    simp [Kind.texts, Kind.fixed, Kind.reserved] at htext

/-- Tokens of one kind that has one text are the same but for their lines. -/
theorem erase_eq_of_kind (h : t.Genuine) (h' : t'.Genuine) {text : String}
    (hkind : t.kind = t'.kind) (htext : (text, t.kind) ∈ Kind.texts) :
    Relabelling.erase.token t = Relabelling.erase.token t' :=
  h.erase_eq h' ((h.lexeme_eq htext).trans (h'.lexeme_eq (hkind ▸ htext)).symm)

/-- A name is a word that begins like no number. -/
theorem valid_name (h : t.Genuine) (hkind : t.kind = .identifier) :
    t.form.Valid ∧ beginsNumber t.lexeme = false := by
  obtain ⟨bytes, hrule, hlexeme⟩ := h.rule
  rw [hkind] at hrule
  generalize hidentifier : Kind.identifier = kind at hrule
  cases hrule with
  | @identifier b rest hb hrest _ =>
    have hparts : ∀ c ∈ b :: rest, isWordPart c :=
      List.forall_mem_cons.mpr ⟨isWordPart_of_isWordStart hb, hrest⟩
    have htext : t.lexeme.toList = (b :: rest).map Char.ofUInt8 := by
      rw [hlexeme, Text.Utf8.decodeLossy_ascii fun c hc => lt_of_isWordPart (hparts c hc),
        String.toList_ofList]
    constructor
    · refine .word (by rw [htext]; simp) fun c hc => ?_
      rw [htext] at hc
      obtain ⟨b', hb', rfl⟩ := List.mem_map.mp hc
      exact not_mem_separators_of_isWordPart (hparts b' hb')
    · rw [beginsNumber, htext, List.map_cons, List.head?_cons, Option.any_some]
      exact not_beginsNumber_of_isWordStart b hb
  | fixed hfixed => subst hidentifier; simp [Kind.fixed] at hfixed
  | reserved hreserved => subst hidentifier; simp [Kind.reserved] at hreserved
  | whole | decimal | string => cases hidentifier

/-- A name is no reserved word. -/
theorem name_ne (h : t.Genuine) (hkind : t.kind = .identifier) {text : String}
    (htext : Kind.ofWord text ≠ .identifier) : t.lexeme ≠ text := by
  rintro rfl
  rcases h.word with hmark | hword
  · exact absurd (hkind ▸ hmark) (by decide)
  · exact htext (hword ▸ hkind)

end Token.Genuine

/-! ## 2. Constants -/

/-- A word that a tree remembers: a token as sources have it, or a finite number if it has a
value. -/
def Mark.Genuine : Mark → Prop
  | .token t => t.Genuine
  | .word _ literal => ∀ value ∈ literal, ∃ x, value = .number x ∧ IsFinite x

/-- The constants that are no numbers and no texts. -/
def Constant.named : List Constant := [.bool true, .bool false, .nil]

/-- The words for constants that are no numbers. -/
def constantWords : List String := ["true", "false", "nil"]

theorem writes_numberOutline {x : Float} (h : IsFinite x) :
    Writes x (Constant.numberOutline x).toList := by
  obtain ⟨negative, magnitude, hreading⟩ := h
  unfold Constant.numberOutline
  split
  · next hwhole => exact Decimal.writes_wholeWithPoint hwhole
  · exact Decimal.writes_plain hreading

/-- What is written for a number is a word that begins like a number. -/
theorem valid_numberOutline {x : Float} (h : IsFinite x) :
    (Form.word (Constant.numberOutline x)).Valid ∧
      beginsNumber (Constant.numberOutline x) = true := by
  obtain ⟨negative, magnitude, body, -, htext, hne, hplain, -⟩ := writes_numberOutline h
  have hsign : ∀ c ∈ (if negative then ['-'] else []), c = '-' := by
    cases negative <;> simp
  have hall : ∀ c ∈ (Constant.numberOutline x).toList, IsPlain c ∨ c = '-' := by
    intro c hc
    rw [htext] at hc
    exact (List.mem_append.mp hc).elim (fun hc => .inr (hsign c hc)) fun hc => .inl (hplain c hc)
  obtain ⟨c, cs, hcons⟩ : ∃ c cs, (Constant.numberOutline x).toList = c :: cs :=
    List.exists_cons_of_ne_nil (htext ▸ List.append_ne_nil_of_right_ne_nil _ hne)
  constructor
  · refine .word (hcons ▸ List.cons_ne_nil _ _) fun c hc hseparator => ?_
    simp only [separators, List.mem_cons, List.not_mem_nil, or_false] at hseparator
    rcases hall c hc with (hdigit | rfl) | rfl
    · rcases hseparator with rfl | rfl | rfl <;> exact absurd hdigit (by decide)
    · revert hseparator
      decide
    · revert hseparator
      decide
  · rw [beginsNumber, hcons, List.head?_cons, Option.any_some]
    rcases hall c (hcons ▸ List.mem_cons_self) with (hdigit | rfl) | rfl
    · simp [hdigit]
    · rfl
    · rfl

namespace Constant

variable {value value' : Constant}

theorem genuine_cases (h : value.mark.Genuine) :
    (∃ x, value = .number x ∧ IsFinite x) ∨ value ∈ named := by
  cases value with
  | number x =>
    obtain ⟨y, heq, hfinite⟩ := h _ rfl
    cases heq
    exact .inl ⟨x, rfl, hfinite⟩
  | text =>
    obtain ⟨y, heq, -⟩ := h _ rfl
    cases heq
  | bool b => cases b <;> exact .inr (by decide)
  | nil => exact .inr (by decide)

theorem outline_named : ∀ value ∈ named, value.outline ∈ constantWords := by
  decide

theorem outline_inj_named : ∀ value ∈ named, ∀ value' ∈ named,
    value.outline = value'.outline → value = value' := by
  decide

theorem not_beginsNumber_constantWords : ∀ word ∈ constantWords, beginsNumber word = false := by
  decide

theorem isWord_constantWords : ∀ word ∈ constantWords, isWord word = true := by
  decide

/-- A constant is written as a word for constants, or as a word that begins like a number. -/
theorem valid_form (h : value.mark.Genuine) : value.form.Valid ∧
    (value.outline ∈ constantWords ∨ beginsNumber value.outline = true) := by
  rcases genuine_cases h with ⟨x, rfl, hfinite⟩ | hnamed
  · exact ⟨(valid_numberOutline hfinite).1, .inr (valid_numberOutline hfinite).2⟩
  · have hword := outline_named value hnamed
    exact ⟨.of_isWord (isWord_constantWords _ hword), .inl hword⟩

theorem numberOutline_ne_outline {x : Float} (hfinite : IsFinite x) (hnamed : value ∈ named) :
    numberOutline x ≠ value.outline := by
  intro heq
  have hbegins := (valid_numberOutline hfinite).2
  rw [heq, not_beginsNumber_constantWords _ (outline_named value hnamed)] at hbegins
  cases hbegins

/-- Constants that are written alike are equal. -/
theorem eq_of_outline (h : value.mark.Genuine) (h' : value'.mark.Genuine)
    (heq : value.outline = value'.outline) : value = value' := by
  rcases genuine_cases h with ⟨x, rfl, hfinite⟩ | hnamed
  · rcases genuine_cases h' with ⟨x', rfl, hfinite'⟩ | hnamed'
    · have hwrites := writes_numberOutline hfinite'
      rw [← show numberOutline x = numberOutline x' from heq] at hwrites
      rw [Decimal.eq_of_writes (writes_numberOutline hfinite) hwrites]
    · exact absurd heq (numberOutline_ne_outline hfinite hnamed')
  · rcases genuine_cases h' with ⟨x', rfl, hfinite'⟩ | hnamed'
    · exact absurd heq.symm (numberOutline_ne_outline hfinite' hnamed)
    · exact outline_inj_named value hnamed value' hnamed' heq

end Constant

end ScriptLang
