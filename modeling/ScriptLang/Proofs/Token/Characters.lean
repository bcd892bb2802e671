/-
ScriptLang.Proofs.Token.Characters — scanning a text, character by character.

The scanner works on bytes. If the bytes are those of a text, it nevertheless
cuts between characters: the bytes that end a lexeme are ASCII, so they never
stand inside another character, and a byte that begins nothing takes the rest
of its character along. `Stretch` says which characters a lexeme may be made
of, and what may follow them (`exists_stretch`, `pieces_text`).

Which characters are faults can therefore be told from the text alone
(`foreign`): those that begin no lexeme of the grammar and stand outside of
strings and comments. `scan_characters` puts this beside the faults that the
scanner finds.
-/
import ScriptLang.Proofs.Text.Encoding
import ScriptLang.Proofs.Token.LongestMatch

namespace ScriptLang

open Decimal (isDigit numeral)
open String (utf8EncodeChar)
open Text.Utf8 (encode encode_ofList encode_eq_bytesOf length_encode bytesOf bytesOf_append
  bytesOf_cons takeWhile_bytesOf decodeLossy decodeLossy_encode toNat_ofNat ofUInt8_ofNat
  utf8EncodeChar_ofUInt8 utf8EncodeChar_cases uniform_utf8EncodeChar mem_utf8EncodeChar_ascii)

/-! ## 1. Characters in a text -/

/-- Some lexeme of the grammar begins with the character. -/
def BeginsLexeme (c : Char) : Prop :=
  ∃ bytes, utf8EncodeChar c <+: bytes ∧ ((∃ kind, TokenRule kind bytes) ∨ BlankRule bytes)

/-- A character of a text, and how many bytes stand before it. -/
structure Place where
  offset : Nat
  char : Char
  deriving DecidableEq, Repr

/-- The places of some characters. -/
def placesFrom (offset : Nat) : List Char → List Place
  | [] => []
  | c :: cs => ⟨offset, c⟩ :: placesFrom (offset + c.utf8Size) cs

/-- What a character stands in. -/
inductive Region where
  | code
  | string
  | comment

/-- The characters outside of strings and comments, when the first one stands in a region. -/
def outside : Region → List Place → List Place
  | _, [] => []
  | .code, p :: rest =>
    if p.char = '"' then outside .string rest
    else if p.char = '/' ∧ rest.head?.map Place.char = some '/' then outside .comment rest
    else p :: outside .code rest
  | .string, p :: rest => outside (if p.char = '"' then .code else .string) rest
  | .comment, p :: rest =>
    if p.char = '\n' then p :: outside .code rest else outside .comment rest

/-! ## 2. Which characters begin a lexeme -/

section Beginning

variable {b : UInt8} {c : Char}

theorem begins_of_token (hb : b < 0x80) {tail : List UInt8} {kind : Kind} {literal : Option Literal}
    (h : (recognise b tail).1 = .token kind literal) : BeginsLexeme (Char.ofUInt8 b) := by
  refine ⟨_, ?_, .inl ⟨kind, tokenRule_recognise (Prod.ext h rfl)⟩⟩
  rw [utf8EncodeChar_ofUInt8 hb]
  exact ⟨_, rfl⟩

/-- No lexeme begins with a character whose first byte is always a fault. -/
theorem not_begins {rest : List UInt8} (hbytes : utf8EncodeChar c = b :: rest)
    (h : ∀ tail, (recognise b tail).1 = .unexpected) : ¬ BeginsLexeme c := by
  rintro ⟨bytes, ⟨after, rfl⟩, hrule⟩
  rw [hbytes, List.cons_append] at hrule
  rcases hrule with ⟨kind, hrule⟩ | hrule
  · have htakes := (takes_of_tokenRule hrule List.prefix_rfl).1
    rw [h] at htakes
    cases htakes
  · have htakes := takes_of_blankRule hrule List.prefix_rfl
    rw [h] at htakes
    cases htakes

/-- The characters that are a lexeme by themselves, whatever follows. -/
def singles : List Char :=
  ['(', ')', '\x7b', '\x7d', ',', '.', '-', '+', ';', '*', ' ', '\r', '\t', '\n']

/-- The characters that begin a lexeme with an equals sign or without one. -/
def comparisons : List Char := ['!', '=', '<', '>']

/-- The characters other than letters, digits and the underscore that begin a lexeme. -/
def signs : List Char := singles ++ comparisons ++ ['/', '"']

/-- A property that is checked of some characters, without a search through all of them. -/
theorem forall_mem_of_all {P : Char → Prop} [DecidablePred P] {cs : List Char}
    (h : cs.all (fun c => decide (P c)) = true) : ∀ c ∈ cs, P c := fun c hc =>
  of_decide_eq_true (List.all_eq_true.mp h c hc)

theorem recognise_foreign (hdigit : ¬ isDigit b) (hword : ¬ isWordStart b)
    (hsign : Char.ofUInt8 b ∉ signs) (tail : List UInt8) :
    recognise b tail = recogniseForeign tail := by
  unfold recognise
  split
  case h_21 => rw [if_neg hdigit, if_neg hword]
  all_goals
    rename_i hchar
    exact absurd (by rw [hchar]; decide) hsign

theorem recognise_large (hb : 0x80 ≤ b) (tail : List UInt8) :
    recognise b tail = recogniseForeign tail := by
  have hlarge : ¬ b < 0x80 := UInt8.not_lt.mpr hb
  refine recognise_foreign (fun h => hlarge (lt_of_isDigit h))
    (fun h => hlarge (lt_of_isWordPart (isWordPart_of_isWordStart h))) (fun h => ?_) tail
  have hsigns : ∀ c ∈ signs, c.toNat < 0x80 := forall_mem_of_all (by decide)
  have hvalue := hsigns _ h
  rw [Text.Utf8.toNat_ofUInt8] at hvalue
  exact hlarge (UInt8.lt_iff_toNat_lt.mpr hvalue)

theorem begins_digit (h : isDigit b) : BeginsLexeme (Char.ofUInt8 b) := by
  have hnumber : (recognise b []).1 = (recogniseNumber b []).1 := by rw [recognise_digit h]
  exact begins_of_token (lt_of_isDigit h) hnumber

theorem begins_wordStart (h : isWordStart b) : BeginsLexeme (Char.ofUInt8 b) := by
  have hword : (recognise b []).1 = (recogniseWord b []).1 := by rw [recognise_wordStart h]
  exact begins_of_token (lt_of_isWordPart (isWordPart_of_isWordStart h)) hword

theorem begins_sign (h : c ∈ signs) : BeginsLexeme c := by
  have hcases : ∀ c ∈ signs, (ascii c < 0x80 ∧ Char.ofUInt8 (ascii c) = c) ∧
      ((recognise (ascii c) [ascii '"']).1.isFault = false ∧
        (recognise (ascii c) [ascii '"']).1 ≠ .blank ∨ ascii c ∈ spelling " \r\t\n") :=
    forall_mem_of_all (by decide +kernel)
  obtain ⟨⟨hascii, hchar⟩, hcase⟩ := hcases c h
  rw [← hchar]
  rcases hcase with ⟨hfault, hblank⟩ | hspace
  · cases hlexeme : (recognise (ascii c) [ascii '"']).1 with
    | token kind literal => exact begins_of_token hascii hlexeme
    | blank => exact absurd hlexeme hblank
    | unterminated | unexpected =>
      rw [hlexeme] at hfault
      cases hfault
  · have hone : utf8EncodeChar (Char.ofUInt8 (ascii c)) <+: [ascii c] :=
      (utf8EncodeChar_ofUInt8 hascii).symm ▸ List.prefix_rfl
    exact ⟨_, hone, .inr (.space hspace)⟩

/-- The characters that begin a lexeme: digits, letters, the underscore and the signs. -/
theorem beginsLexeme_iff (c : Char) : BeginsLexeme c ↔ c.toNat < 0x80 ∧
    (isDigit (UInt8.ofNat c.toNat) ∨ isWordStart (UInt8.ofNat c.toNat) ∨ c ∈ signs) := by
  constructor
  · intro h
    rcases utf8EncodeChar_cases c with ⟨hc, hbytes⟩ | ⟨-, lead, rest, hbytes, hlead, -⟩
    · refine ⟨hc, Decidable.byContradiction fun hnone => ?_⟩
      simp only [not_or] at hnone
      obtain ⟨hdigit, hword, hsign⟩ := hnone
      rw [← ofUInt8_ofNat hc] at hsign
      exact not_begins hbytes (fun tail => by rw [recognise_foreign hdigit hword hsign]; rfl) h
    · have hlarge : 0x80 ≤ lead := UInt8.le_trans (by decide) hlead
      exact absurd h (not_begins hbytes fun tail => by rw [recognise_large hlarge]; rfl)
  · rintro ⟨hc, hcase⟩
    rcases hcase with hdigit | hword | hsign
    · exact ofUInt8_ofNat hc ▸ begins_digit hdigit
    · exact ofUInt8_ofNat hc ▸ begins_wordStart hword
    · exact begins_sign hsign

instance : DecidablePred BeginsLexeme := fun c => decidable_of_iff _ (beginsLexeme_iff c).symm

end Beginning

/-- The characters that begin no lexeme and stand outside of strings and comments, when the first
one stands in code. -/
def foreignFrom (offset : Nat) (cs : List Char) : List Place :=
  (outside .code (placesFrom offset cs)).filter fun p => ¬ BeginsLexeme p.char

/-- The characters of a text that begin no lexeme and stand outside of strings and comments. -/
def foreign (text : String) : List Place :=
  foreignFrom 0 text.toList

/-! ## 3. The characters of a lexeme -/

/-- A character that begins a lexeme other than a string or a comment. -/
def Plain (c : Char) : Prop :=
  BeginsLexeme c ∧ c ≠ '"' ∧ c ≠ '/'

/-- `Stretch lexeme within after`: the characters `within`, standing in code before the characters
`after`, may make up the lexeme. -/
inductive Stretch : Lexeme → List Char → List Char → Prop where
  | plain {lexeme within after} : lexeme ≠ .unexpected → (∀ c ∈ within, Plain c) →
      Stretch lexeme within after
  | slash {lexeme after} : lexeme ≠ .unexpected → after.head? ≠ some '/' →
      Stretch lexeme ['/'] after
  | comment {lexeme body after} : lexeme ≠ .unexpected → (∀ c ∈ body, c ≠ '\n') →
      (∀ c ∈ after.head?, c = '\n') → Stretch lexeme ('/' :: '/' :: body) after
  | string {lexeme body after} : lexeme ≠ .unexpected → (∀ c ∈ body, c ≠ '"') →
      Stretch lexeme ('"' :: body ++ ['"']) after
  | unclosed {lexeme body} : lexeme ≠ .unexpected → (∀ c ∈ body, c ≠ '"') →
      Stretch lexeme ('"' :: body) []
  | foreign {c after} : ¬ BeginsLexeme c → Stretch .unexpected [c] after

/-- What is recognised at a byte takes in whole characters of the text that follows. -/
def TakesIn (b : UInt8) (c : Char) (cs : List Char) : Prop :=
  ∃ within after, cs = within ++ after ∧ (recognise b (bytesOf cs)).2 = (bytesOf within).length ∧
    Stretch (recognise b (bytesOf cs)).1 (c :: within) after

section Stretches

variable {b : UInt8} {c : Char} {cs : List Char}

theorem plain_wordPart (h : isWordPart b) : Plain (Char.ofUInt8 b) := by
  have hother : ∀ c, Char.ofUInt8 b = c → isWordPart (ascii c) := by
    intro c hc
    rwa [← eq_ascii_of_ofUInt8 hc]
  refine ⟨?_, fun hc => absurd (hother _ hc) (by decide), fun hc => absurd (hother _ hc) (by decide)⟩
  simp only [isWordPart, Bool.or_eq_true] at h
  exact h.elim begins_wordStart begins_digit

theorem plain_digit (h : isDigit b) : Plain (Char.ofUInt8 b) :=
  plain_wordPart (by simp [isWordPart, h])

/-- The characters of a text up to the first one that is not of a class of ASCII bytes. -/
theorem takeWhile_ascii {p : UInt8 → Bool} (h : ∀ b, p b = true → b < 0x80) (cs : List Char) :
    ∃ within after, cs = within ++ after ∧ (bytesOf cs).takeWhile p = bytesOf within ∧
      ∀ c ∈ within, ∃ b, p b = true ∧ c = Char.ofUInt8 b := by
  have hlarge : ∀ b, 0x80 ≤ b → p b = false := by
    intro b hb
    rw [← Bool.not_eq_true]
    exact fun hp => UInt8.not_lt.mpr hb (h b hp)
  refine ⟨_, _, List.takeWhile_append_dropWhile.symm,
    takeWhile_bytesOf (uniform_utf8EncodeChar false hlarge) cs, fun c hc => ?_⟩
  have hcond := List.mem_takeWhile_imp hc
  split at hcond
  · rename_i hascii
    exact ⟨_, hcond, (ofUInt8_ofNat hascii).symm⟩
  · cases hcond

/-- The characters of a text up to an ASCII character. -/
theorem takeWhile_upTo (hb : b < 0x80) (cs : List Char) :
    (bytesOf cs).takeWhile (· != b) = bytesOf (cs.takeWhile (· != Char.ofUInt8 b)) := by
  refine takeWhile_bytesOf (fun c d hd => ?_) cs
  rw [Bool.eq_iff_iff, bne_iff_ne, bne_iff_ne]
  refine not_congr ⟨?_, ?_⟩
  · rintro rfl
    exact (mem_utf8EncodeChar_ascii hb).mp hd
  · rintro rfl
    rw [utf8EncodeChar_ofUInt8 hb] at hd
    exact List.mem_singleton.mp hd

/-- A text whose bytes begin with an ASCII byte begins with its character. -/
theorem exists_cons_of_bytesOf {tail : List UInt8} (hb : b < 0x80) (h : bytesOf cs = b :: tail) :
    ∃ rest, cs = Char.ofUInt8 b :: rest ∧ tail = bytesOf rest := by
  cases cs with
  | nil => cases h
  | cons c rest =>
    have hc : c = Char.ofUInt8 b := by
      obtain ⟨b', bytes, hbytes⟩ := List.exists_cons_of_ne_nil (String.utf8EncodeChar_ne_nil (c := c))
      rw [bytesOf_cons, hbytes, List.cons_append] at h
      cases h
      exact (mem_utf8EncodeChar_ascii hb).mp (hbytes ▸ List.mem_cons_self)
    subst hc
    rw [bytesOf_cons, utf8EncodeChar_ofUInt8 hb] at h
    cases h
    exact ⟨rest, rfl, rfl⟩

theorem takesIn_word (h : isWordStart b) : TakesIn b (Char.ofUInt8 b) cs := by
  obtain ⟨within, after, hcs, htake, hwithin⟩ :=
    takeWhile_ascii (p := isWordPart) (fun _ => lt_of_isWordPart) cs
  refine ⟨within, after, hcs, ?_, ?_⟩
  · rw [recognise_wordStart h, recogniseWord, htake]
  · rw [recognise_wordStart h]
    refine .plain (by simp [recogniseWord]) (List.forall_mem_cons.mpr ⟨?_, fun c hc => ?_⟩)
    · exact plain_wordPart (isWordPart_of_isWordStart h)
    · obtain ⟨b', hb', rfl⟩ := hwithin c hc
      exact plain_wordPart hb'

theorem takesIn_number (h : isDigit b) : TakesIn b (Char.ofUInt8 b) cs := by
  obtain ⟨digits, after, rfl, htake, hdigits⟩ :=
    takeWhile_ascii (p := isDigit) (fun _ => lt_of_isDigit) cs
  have hplain : ∀ c ∈ Char.ofUInt8 b :: digits, Plain c := by
    refine List.forall_mem_cons.mpr ⟨plain_digit h, fun c hc => ?_⟩
    obtain ⟨b', hb', rfl⟩ := hdigits c hc
    exact plain_digit hb'
  have hafter : (bytesOf (digits ++ after)).drop (bytesOf digits).length = bytesOf after := by
    rw [bytesOf_append, List.drop_left]
  rw [TakesIn, recognise_digit h, recogniseNumber_eq, htake]
  dsimp only
  rw [hafter]
  rcases fractionOf_cases (bytesOf after) with hnil | ⟨hne, tail, hpoint, hfraction⟩
  · rw [hnil]
    exact ⟨digits, after, rfl, rfl, .plain (by simp) hplain⟩
  · obtain ⟨rest, rfl, rfl⟩ := exists_cons_of_bytesOf (by decide) hpoint
    obtain ⟨places, after, rfl, htake', hplaces⟩ :=
      takeWhile_ascii (p := isDigit) (fun _ => lt_of_isDigit) rest
    rw [hfraction, htake'] at hne ⊢
    refine ⟨digits ++ '.' :: places, after, by simp; rfl, ?_, .plain (by simp) ?_⟩
    · have hlength : (bytesOf places).isEmpty = false := List.isEmpty_eq_false_iff.mpr hne
      have hwidth : (utf8EncodeChar '.').length = 1 := rfl
      rw [hlength, if_neg Bool.false_ne_true, bytesOf_append, List.length_append, bytesOf_cons,
        List.length_append, hwidth, Nat.add_assoc]
    · rw [← List.cons_append]
      refine List.forall_mem_append.mpr ⟨hplain, List.forall_mem_cons.mpr ⟨?_, fun c hc => ?_⟩⟩
      · exact ⟨begins_sign (by decide), by decide, by decide⟩
      · obtain ⟨b', hb', rfl⟩ := hplaces c hc
        exact plain_digit hb'

theorem takesIn_single (h : c ∈ singles) : TakesIn (ascii c) c cs := by
  have hall : ∀ c ∈ singles, ∀ tail, ∃ lexeme, recognise (ascii c) tail = (lexeme, 0) ∧
      lexeme ≠ .unexpected := by
    intro c hc tail
    simp only [singles, List.mem_cons, List.not_mem_nil, or_false] at hc
    rcases hc with rfl | rfl | rfl | rfl | rfl | rfl | rfl | rfl | rfl | rfl | rfl | rfl | rfl | rfl
    all_goals exact ⟨_, rfl, by simp⟩
  obtain ⟨lexeme, hrecognise, hlexeme⟩ := hall c h (bytesOf cs)
  have hother : ∀ c ∈ singles, c ∈ signs ∧ c ≠ '"' ∧ c ≠ '/' :=
    forall_mem_of_all (by decide)
  obtain ⟨hsign, hquote, hslash⟩ := hother c h
  rw [TakesIn, hrecognise]
  refine ⟨[], cs, rfl, rfl, .plain hlexeme fun d hd => ?_⟩
  rw [List.mem_singleton.mp hd]
  exact ⟨begins_sign hsign, hquote, hslash⟩

theorem takesIn_comparison (h : c ∈ comparisons) : TakesIn (ascii c) c cs := by
  have hall : ∀ c ∈ comparisons, ∃ long short, ∀ tail,
      recognise (ascii c) tail = withEquals long short tail := by
    intro c hc
    simp only [comparisons, List.mem_cons, List.not_mem_nil, or_false] at hc
    rcases hc with rfl | rfl | rfl | rfl
    all_goals exact ⟨_, _, fun tail => rfl⟩
  obtain ⟨long, short, hrecognise⟩ := hall c h
  have hother : ∀ c ∈ comparisons, c ∈ signs ∧ c ≠ '"' ∧ c ≠ '/' :=
    forall_mem_of_all (by decide)
  have hplain : ∀ c ∈ comparisons, Plain c := by
    intro c hc
    obtain ⟨hsign, hquote, hslash⟩ := hother c hc
    exact ⟨begins_sign hsign, hquote, hslash⟩
  rw [TakesIn, hrecognise, withEquals]
  split
  · rename_i hequals
    obtain ⟨tail, htail⟩ := List.head?_eq_some_iff.mp hequals
    obtain ⟨rest, rfl, -⟩ := exists_cons_of_bytesOf (by decide) htail
    refine ⟨['='], rest, rfl, rfl, .plain (by simp) ?_⟩
    exact List.forall_mem_cons.mpr ⟨hplain c h, by simpa using hplain '=' (by decide)⟩
  · exact ⟨[], cs, rfl, rfl, .plain (by simp) (by simpa using hplain c h)⟩

/-- A stretch of characters other than one that may follow them. -/
theorem splitAt_upTo (c : Char) (cs : List Char) : ∃ body after, cs = body ++ after ∧
    cs.takeWhile (· != c) = body ∧ (∀ d ∈ body, d ≠ c) ∧ ∀ d ∈ after.head?, d = c := by
  refine ⟨_, _, List.takeWhile_append_dropWhile.symm, rfl, fun d hd => ?_, fun d hd => ?_⟩
  · simpa using List.mem_takeWhile_imp hd
  · have hhead := List.head?_dropWhile_not (· != c) cs
    rw [Option.mem_def.mp hd] at hhead
    simpa using hhead

theorem takesIn_slash : TakesIn (ascii '/') '/' cs := by
  have hrecognise : recognise (ascii '/') (bytesOf cs) = recogniseSlash (bytesOf cs) := rfl
  rw [TakesIn, hrecognise, recogniseSlash]
  split
  · rename_i hslash
    obtain ⟨tail, htail⟩ := List.head?_eq_some_iff.mp hslash
    obtain ⟨rest, rfl, -⟩ := exists_cons_of_bytesOf (by decide) htail
    obtain ⟨body, after, rfl, hbody, hfree, hafter⟩ := splitAt_upTo '\n' rest
    have htake : (bytesOf ('/' :: (body ++ after))).takeWhile (· != lineFeed) =
        bytesOf ('/' :: body) := by
      have hbody' : ('/' :: (body ++ after)).takeWhile (· != '\n') = '/' :: body := by
        rw [List.takeWhile_cons_of_pos (by decide), hbody]
      rw [takeWhile_upTo (by decide)]
      exact congrArg bytesOf hbody'
    refine ⟨'/' :: body, after, rfl, ?_, .comment (by simp) hfree hafter⟩
    exact congrArg List.length htake
  · rename_i hslash
    refine ⟨[], cs, rfl, rfl, .slash (by simp) fun hhead => hslash ?_⟩
    obtain ⟨rest, rfl⟩ := List.head?_eq_some_iff.mp hhead
    rfl

theorem takesIn_quote : TakesIn (ascii '"') '"' cs := by
  have hrecognise : recognise (ascii '"') (bytesOf cs) = recogniseString (bytesOf cs) := rfl
  obtain ⟨body, after, rfl, hbody, hfree, hafter⟩ := splitAt_upTo '"' cs
  have htake : (bytesOf (body ++ after)).takeWhile (· != ascii '"') = bytesOf body := by
    rw [takeWhile_upTo (by decide)]
    exact congrArg bytesOf hbody
  rw [TakesIn, hrecognise, recogniseString, htake, bytesOf_append, List.drop_left]
  cases after with
  | nil => exact ⟨body, [], rfl, rfl, .unclosed (by simp) hfree⟩
  | cons c rest =>
    obtain rfl := hafter c rfl
    have hquote : bytesOf ('"' :: rest) = ascii '"' :: bytesOf rest := rfl
    rw [hquote]
    refine ⟨body ++ ['"'], rest, by simp, ?_, .string (by simp) hfree⟩
    show _ = (bytesOf (body ++ ['"'])).length
    rw [bytesOf_append, List.length_append]
    rfl

/-- No text begins with a byte that continues a character. -/
theorem takeWhile_continuation (cs : List Char) : (bytesOf cs).takeWhile isContinuation = [] := by
  cases cs with
  | nil => rfl
  | cons c cs =>
    rw [bytesOf_cons]
    rcases utf8EncodeChar_cases c with ⟨hc, hbytes⟩ | ⟨-, lead, rest, hbytes, hlead, -⟩
    · have hlow : isContinuation (UInt8.ofNat c.toNat) = false := by
        simp only [isContinuation, UInt8.le_iff_toNat_le,
          toNat_ofNat (show c.toNat < 0x100 by omega)]
        simp
        omega
      rw [hbytes, List.cons_append, List.takeWhile_cons_of_neg (by simp [hlow])]
    · have hhigh : isContinuation lead = false := by
        simp only [isContinuation, UInt8.lt_iff_toNat_lt, UInt8.le_iff_toNat_le] at *
        simp at hlead ⊢
        omega
      rw [hbytes, List.cons_append, List.takeWhile_cons_of_neg (by simp [hhigh])]

theorem takesIn_ascii (hb : b < 0x80) : TakesIn b (Char.ofUInt8 b) cs := by
  by_cases hdigit : isDigit b
  · exact takesIn_number hdigit
  by_cases hword : isWordStart b
  · exact takesIn_word hword
  by_cases hsign : Char.ofUInt8 b ∈ signs
  · have hascii := ascii_ofUInt8 b
    generalize Char.ofUInt8 b = c at *
    subst hascii
    simp only [signs, List.mem_append, List.mem_cons, List.not_mem_nil, or_false] at hsign
    rcases hsign with (hsingle | hcomparison) | rfl | rfl
    · exact takesIn_single hsingle
    · exact takesIn_comparison hcomparison
    · exact takesIn_slash
    · exact takesIn_quote
  · have hforeign : ∀ tail, recognise b tail = recogniseForeign tail :=
      recognise_foreign hdigit hword hsign
    have hbegins : ¬ BeginsLexeme (Char.ofUInt8 b) :=
      not_begins (utf8EncodeChar_ofUInt8 hb) fun tail => by rw [hforeign]; rfl
    rw [TakesIn, hforeign, recogniseForeign, takeWhile_continuation]
    exact ⟨[], cs, rfl, rfl, .foreign hbegins⟩

/-- A lexeme takes in whole characters: the rest of its first one, and some that come after it. -/
theorem exists_stretch (c : Char) (cs : List Char) : ∃ b rest within after,
    utf8EncodeChar c = b :: rest ∧ cs = within ++ after ∧
      (recognise b (rest ++ bytesOf cs)).2 = (rest ++ bytesOf within).length ∧
      Stretch (recognise b (rest ++ bytesOf cs)).1 (c :: within) after := by
  rcases utf8EncodeChar_cases c with ⟨hc, hbytes⟩ | ⟨-, lead, rest, hbytes, hlead, hrest⟩
  · have hb : UInt8.ofNat c.toNat < 0x80 := by
      rw [UInt8.lt_iff_toNat_lt, toNat_ofNat (by omega)]
      exact hc
    have htakes : TakesIn _ _ cs := takesIn_ascii hb
    obtain ⟨within, after, hcs, hlength, hstretch⟩ := htakes
    rw [ofUInt8_ofNat hc] at hstretch
    exact ⟨_, [], within, after, hbytes, hcs, hlength, hstretch⟩
  · have hforeign : ∀ tail, recognise lead tail = recogniseForeign tail :=
      recognise_large (UInt8.le_trans (by decide) hlead)
    have hcontinue : ∀ b ∈ rest, isContinuation b = true := by
      intro b hb
      simpa [isContinuation] using hrest b hb
    have htake : (rest ++ bytesOf cs).takeWhile isContinuation = rest := by
      rw [List.takeWhile_append_of_pos hcontinue, takeWhile_continuation, List.append_nil]
    refine ⟨lead, rest, [], cs, hbytes, rfl, ?_, ?_⟩
    · rw [hforeign, recogniseForeign, htake]
      simp
    · rw [hforeign]
      exact .foreign (not_begins hbytes fun tail => by rw [hforeign]; rfl)

/-- The first piece of a text and the text after it. -/
theorem pieces_text (c : Char) (cs : List Char) : ∃ lexeme within after, cs = within ++ after ∧
    Stretch lexeme (c :: within) after ∧
      pieces (bytesOf (c :: cs)) = ⟨lexeme, bytesOf (c :: within)⟩ :: pieces (bytesOf after) := by
  obtain ⟨b, rest, within, after, hbytes, rfl, hlength, hstretch⟩ := exists_stretch c cs
  refine ⟨_, within, after, rfl, hstretch, ?_⟩
  have htail : rest ++ bytesOf (within ++ after) = (rest ++ bytesOf within) ++ bytesOf after := by
    rw [bytesOf_append, List.append_assoc]
  rw [bytesOf_cons, hbytes, List.cons_append, pieces_cons, hlength, htail, List.take_left,
    List.drop_left, bytesOf_cons, hbytes, List.cons_append]

/-- Induction along a text, one piece at a time. -/
theorem along_pieces {motive : List Char → Prop} (nil : motive [])
    (cons : ∀ {lexeme c within after}, Stretch lexeme (c :: within) after →
      pieces (bytesOf (c :: (within ++ after))) =
        ⟨lexeme, bytesOf (c :: within)⟩ :: pieces (bytesOf after) →
      motive after → motive (c :: (within ++ after))) (cs : List Char) : motive cs := by
  induction hlength : cs.length using Nat.strong_induction_on generalizing cs with
  | _ length ih =>
    cases cs with
    | nil => exact nil
    | cons c cs =>
      obtain ⟨lexeme, within, after, rfl, hstretch, hpieces⟩ := pieces_text c cs
      have hshorter : after.length < length := by
        rw [← hlength, List.length_cons, List.length_append]
        omega
      exact cons hstretch hpieces (ih after.length hshorter after rfl)

end Stretches

/-! ## 4. Foreign characters -/

section Foreign

variable {lexeme : Lexeme} {within body after : List Char} {region : Region} {stop : Char}

theorem length_bytesOf_cons (c : Char) (cs : List Char) :
    (bytesOf (c :: cs)).length = c.utf8Size + (bytesOf cs).length := by
  rw [bytesOf_cons, List.length_append, String.length_utf8EncodeChar]

/-- A region goes on up to the character that ends it. -/
theorem outside_upTo (hregion : ∀ p rest, p.char ≠ stop →
      outside region (p :: rest) = outside region rest)
    (hbody : ∀ c ∈ body, c ≠ stop) (offset : Nat) :
    outside region (placesFrom offset (body ++ after)) =
      outside region (placesFrom (offset + (bytesOf body).length) after) := by
  induction body generalizing offset with
  | nil => rfl
  | cons c body ih =>
    obtain ⟨hc, hbody⟩ := List.forall_mem_cons.mp hbody
    rw [List.cons_append, placesFrom, hregion _ _ hc, ih hbody, length_bytesOf_cons, Nat.add_assoc]

theorem outside_string (hbody : ∀ c ∈ body, c ≠ '"') (offset : Nat) :
    outside .string (placesFrom offset (body ++ after)) =
      outside .string (placesFrom (offset + (bytesOf body).length) after) :=
  outside_upTo (fun p rest hp => by rw [outside, if_neg hp]) hbody offset

theorem outside_comment (hbody : ∀ c ∈ body, c ≠ '\n') (offset : Nat) :
    outside .comment (placesFrom offset (body ++ after)) =
      outside .comment (placesFrom (offset + (bytesOf body).length) after) :=
  outside_upTo (fun p rest hp => by rw [outside, if_neg hp]) hbody offset

/-- A character outside of strings and comments, which begins neither. -/
theorem foreignFrom_cons {c : Char} {cs : List Char} (hquote : c ≠ '"')
    (hslash : c = '/' → cs.head? ≠ some '/') (offset : Nat) :
    foreignFrom offset (c :: cs) =
      (if BeginsLexeme c then [] else [⟨offset, c⟩]) ++ foreignFrom (offset + c.utf8Size) cs := by
  have hcomment : ¬ (c = '/' ∧
      (placesFrom (offset + c.utf8Size) cs).head?.map Place.char = some '/') := by
    rintro ⟨rfl, hhead⟩
    cases cs with
    | nil => cases hhead
    | cons d cs => exact hslash rfl hhead
  rw [foreignFrom, placesFrom, outside, if_neg hquote, if_neg hcomment, List.filter_cons]
  by_cases hbegins : BeginsLexeme c <;> simp [hbegins, foreignFrom]

theorem foreignFrom_plain (h : ∀ c ∈ within, Plain c) (offset : Nat) :
    foreignFrom offset (within ++ after) = foreignFrom (offset + (bytesOf within).length) after := by
  induction within generalizing offset with
  | nil => rfl
  | cons c within ih =>
    obtain ⟨⟨hbegins, hquote, hslash⟩, hwithin⟩ := List.forall_mem_cons.mp h
    rw [List.cons_append, foreignFrom_cons hquote (absurd · hslash), if_pos hbegins, ih hwithin,
      length_bytesOf_cons, Nat.add_assoc, List.nil_append]

/-- Nothing in a comment is foreign, and the line feed that ends it stands in code already. -/
theorem foreignFrom_comment (hbody : ∀ c ∈ body, c ≠ '\n') (hafter : ∀ c ∈ after.head?, c = '\n')
    (offset : Nat) : foreignFrom offset ('/' :: '/' :: body ++ after) =
      foreignFrom (offset + (bytesOf ('/' :: '/' :: body)).length) after := by
  have hslashes : ∀ cs, outside .code (placesFrom offset ('/' :: '/' :: cs)) =
      outside .comment (placesFrom (offset + 2) cs) := fun _ => rfl
  have hcode : ∀ offset, outside .comment (placesFrom offset after) =
      outside .code (placesFrom offset after) := by
    intro offset
    cases after with
    | nil => rfl
    | cons c after =>
      obtain rfl := hafter c rfl
      rfl
  have hwidth : (bytesOf ('/' :: '/' :: body)).length = 2 + (bytesOf body).length := by
    rw [length_bytesOf_cons, length_bytesOf_cons, ← Nat.add_assoc]
    rfl
  rw [foreignFrom, List.cons_append, List.cons_append, hslashes, outside_comment hbody, hcode,
    hwidth, ← Nat.add_assoc]
  rfl

/-- A quote begins a string. -/
theorem outside_quote (offset : Nat) (cs : List Char) :
    outside .code (placesFrom offset ('"' :: cs)) = outside .string (placesFrom (offset + 1) cs) :=
  rfl

/-- Nothing in a string is foreign, and its last quote ends it. -/
theorem foreignFrom_string (hbody : ∀ c ∈ body, c ≠ '"') (offset : Nat) :
    foreignFrom offset ('"' :: body ++ ['"'] ++ after) =
      foreignFrom (offset + (bytesOf ('"' :: body ++ ['"'])).length) after := by
  have hclose : ∀ offset, outside .string (placesFrom offset ('"' :: after)) =
      outside .code (placesFrom (offset + 1) after) := fun _ => rfl
  have hwidth : offset + (bytesOf ('"' :: body ++ ['"'])).length =
      offset + 1 + (bytesOf body).length + 1 := by
    rw [bytesOf_append, List.length_append, length_bytesOf_cons, ← Nat.add_assoc, ← Nat.add_assoc]
    rfl
  rw [foreignFrom, List.append_assoc, List.cons_append, List.singleton_append, outside_quote,
    outside_string hbody, hclose, hwidth]
  rfl

/-- Nothing in a lexeme is foreign, unless the lexeme is. -/
theorem foreignFrom_stretch (h : Stretch lexeme within after) (offset : Nat) :
    foreignFrom offset (within ++ after) =
      (if lexeme = .unexpected then placesFrom offset within else []) ++
        foreignFrom (offset + (bytesOf within).length) after := by
  cases h with
  | plain hlexeme hplain => rw [if_neg hlexeme, foreignFrom_plain hplain, List.nil_append]
  | slash hlexeme hnext =>
    rw [if_neg hlexeme, List.singleton_append, foreignFrom_cons (by decide) fun _ => hnext,
      if_pos (begins_sign (by decide))]
    rfl
  | comment hlexeme hbody hafter =>
    rw [if_neg hlexeme, foreignFrom_comment hbody hafter, List.nil_append]
  | string hlexeme hbody => rw [if_neg hlexeme, foreignFrom_string hbody, List.nil_append]
  | unclosed hlexeme hbody =>
    rw [if_neg hlexeme, foreignFrom, List.cons_append, outside_quote, outside_string hbody]
    rfl
  | @foreign c after hbegins =>
    have hsign : ∀ d ∈ signs, c ≠ d := by
      rintro d hd rfl
      exact hbegins (begins_sign hd)
    rw [if_pos rfl, List.singleton_append, foreignFrom_cons (hsign _ (by decide)) fun hc =>
      absurd hc (hsign _ (by decide)), if_neg hbegins, length_bytesOf_cons]
    rfl

end Foreign

/-! ## 5. Whole texts -/

/-- An extent gives a fault for a character that is not expected. -/
def Extent.isUnexpected (source : List UInt8) (x : Extent) : Bool :=
  match x.item? source with
  | some (.error (.lexical _ (.unexpectedCharacter _))) => true
  | _ => false

theorem Extent.isUnexpected_iff (source : List UInt8) (x : Extent) :
    x.isUnexpected source ↔ x.piece.lexeme = .unexpected := by
  unfold Extent.isUnexpected Extent.item? Piece.item?
  cases x.piece.lexeme <;> simp

/-- Where a character stands, as a fault. -/
def Place.extent (p : Place) : Extent :=
  ⟨⟨.unexpected, utf8EncodeChar p.char⟩, p.offset, p.offset + p.char.utf8Size⟩

/-- The faults among the extents of a text are its foreign characters. -/
theorem filter_unexpected (offset : Nat) (cs : List Char) :
    (extentsFrom offset (pieces (bytesOf cs))).filter (·.piece.lexeme = .unexpected) =
      (foreignFrom offset cs).map Place.extent := by
  induction cs using along_pieces generalizing offset with
  | nil => rfl
  | cons hstretch hpieces ih =>
    rw [hpieces, extentsFrom, List.filter_cons, ih, ← List.cons_append,
      foreignFrom_stretch hstretch, List.map_append]
    cases hstretch with
    | foreign => simp [placesFrom, Place.extent]
    | _ => simp [*]

/-- The pieces of a text stand between two of its characters. -/
theorem exists_within (before cs : List Char) :
    ∀ x ∈ extentsFrom (bytesOf before).length (pieces (bytesOf cs)), ∃ left within right,
      before ++ cs = left ++ within ++ right ∧ x.piece.bytes = bytesOf within ∧
        x.start = (bytesOf left).length ∧ x.stop = (bytesOf (left ++ within)).length := by
  induction cs using along_pieces generalizing before with
  | nil =>
    intro x hx
    cases hx
  | @cons lexeme c within after _ hpieces ih =>
    have hstop : (bytesOf before).length + (bytesOf (c :: within)).length =
        (bytesOf (before ++ c :: within)).length := by
      rw [bytesOf_append, List.length_append]
    have hmoved : before ++ c :: (within ++ after) = before ++ c :: within ++ after := by simp
    rw [hpieces, extentsFrom, hstop, hmoved]
    intro x hx
    rcases List.mem_cons.mp hx with rfl | hmem
    · exact ⟨before, c :: within, after, rfl, rfl, rfl, rfl⟩
    · exact ih (before ++ c :: within) x hmem

/-- A token has the text of its bytes, and its literal fits. -/
theorem fits_of_item? {source : List UInt8} {x : Extent} (hx : x ∈ extents source) {token : Token}
    (hitem : x.item? source = some (.ok token)) :
    token.lexeme = decodeLossy x.piece.bytes ∧ token.LiteralFits := by
  obtain ⟨b, tail, length, -, hrecognise, hbytes⟩ := exists_recognise hx
  unfold Extent.item? Piece.item? at hitem
  dsimp only at hitem
  cases hlexeme : x.piece.lexeme with
  | blank | unterminated | unexpected => rw [hlexeme] at hitem; cases hitem
  | token kind literal =>
    rw [hlexeme] at hitem hrecognise
    cases hitem
    rw [hbytes]
    exact ⟨rfl, literalFits_recognise hrecognise _⟩

theorem Token.LiteralFits.lexeme_eq {t : Token} (h : t.LiteralFits) {value : String}
    (hvalue : t.literal = some (.text value)) : t.lexeme = "\"" ++ value ++ "\"" := by
  unfold Token.LiteralFits at h
  split at h
  · obtain ⟨text, htext, hlexeme⟩ := h
    rw [hvalue] at htext
    cases htext
    exact hlexeme
  all_goals
    rw [hvalue] at h
    cases h

/-- A text is scanned between its characters: each piece has some of them, and a token has exactly
these as its lexeme, around the text of a string. The characters that are faults are those that
begin no lexeme and stand outside of strings and comments, in order, each with itself in its
message. -/
theorem scan_characters (text : String) :
    scan (encode text) = (extents (encode text)).filterMap (Extent.item? (encode text)) ++
        [.ok (.endOfInput (1 + lineFeeds (encode text)))] ∧
      (∀ x ∈ extents (encode text), ∃ before within after : String,
        text = before ++ within ++ after ∧ x.start = before.utf8ByteSize ∧
          x.stop = (before ++ within).utf8ByteSize ∧
          ∀ token, x.item? (encode text) = some (.ok token) → token.lexeme = within ∧
            ∀ value, token.literal = some (.text value) → within = "\"" ++ value ++ "\"") ∧
      (extents (encode text)).filter (Extent.isUnexpected (encode text)) =
        (foreign text).map Place.extent ∧
      ∀ p ∈ foreign text, p.extent.item? (encode text) =
        some (.error (.lexical (1 + lineFeeds ((encode text).take (p.offset + p.char.utf8Size)))
          (.unexpectedCharacter (String.singleton p.char)))) := by
  refine ⟨?_, ?_, ?_, ?_⟩
  · rw [scan_eq, itemsWithin_extents, lastLine_eq]
  · intro x hx
    have hextents : x ∈ extentsFrom (bytesOf []).length (pieces (bytesOf text.toList)) := by
      rwa [← encode_eq_bytesOf]
    obtain ⟨left, within, right, htext, hbytes, hstart, hstop⟩ := exists_within [] _ x hextents
    have hsize : ∀ cs, (bytesOf cs).length = (String.ofList cs).utf8ByteSize := by
      intro cs
      rw [← encode_ofList, length_encode]
    refine ⟨.ofList left, .ofList within, .ofList right, ?_, ?_, ?_, ?_⟩
    · rw [← String.ofList_append, ← String.ofList_append, ← htext, List.nil_append,
        String.ofList_toList]
    · rw [hstart, hsize]
    · rw [hstop, hsize, String.ofList_append]
    · intro token hitem
      obtain ⟨hlexeme, hfits⟩ := fits_of_item? hx hitem
      rw [hbytes, ← encode_ofList, decodeLossy_encode] at hlexeme
      refine ⟨hlexeme, fun value hvalue => ?_⟩
      rw [← hlexeme, hfits.lexeme_eq hvalue]
  · have hfilter : Extent.isUnexpected (encode text) =
        fun x => decide (x.piece.lexeme = .unexpected) := by
      funext x
      rw [Bool.eq_iff_iff, decide_eq_true_iff, Extent.isUnexpected_iff]
    rw [hfilter, extents, encode_eq_bytesOf, filter_unexpected]
    rfl
  · intro p _
    have hchar : decodeLossy (utf8EncodeChar p.char) = String.singleton p.char := by
      rw [← decodeLossy_encode (String.singleton p.char), encode_eq_bytesOf]
      simp
    unfold Extent.item? Piece.item? Place.extent
    rw [hchar]

/-- A character is a fault in code, but not in a string or a comment. -/
example : foreign "é\"é\"//é\n€1" = [⟨0, 'é'⟩, ⟨11, '€'⟩] := by decide

end ScriptLang
