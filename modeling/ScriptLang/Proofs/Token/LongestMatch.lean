/-
ScriptLang.Proofs.Token.LongestMatch — scanning against the lexical grammar.

`TokenRule` and `BlankRule` are the lexical grammar by itself: which bytes may
form a token of a kind, and which separate tokens. They say nothing about how
a source is cut.

The scanner cuts it by the longest match. Bytes that are recognised as a token
follow the rule of its kind (`tokenRule_recognise`). Bytes at the beginning of
a source that follow any rule are taken in whole, perhaps with more
(`takes_of_tokenRule`), so no rule holds of a longer stretch, and none holds of
a stretch that begins with a fault. `scan_longest_match` says this of every
piece of a source, and that the literal of a token is what its lexeme spells.
-/
import Mathlib.Data.List.TakeWhile
import ScriptLang.Proofs.Text.Decoding
import ScriptLang.Proofs.Token.Tiling

namespace ScriptLang

open Decimal (isDigit numeral)
open Text.Utf8 (decodeLossy decodeLossy_ascii decodeLossy_enclosed)

/-! ## 1. The rules -/

/-- The operators and the punctuation. -/
def Kind.fixed : List (String × Kind) :=
  [("(", .leftParen), (")", .rightParen), ("\x7b", .leftBrace), ("\x7d", .rightBrace),
   (",", .comma), (".", .dot), ("-", .minus), ("+", .plus), (";", .semicolon), ("/", .slash),
   ("*", .star), ("!", .bang), ("!=", .bangEqual), ("=", .equal), ("==", .equalEqual),
   (">", .greater), (">=", .greaterEqual), ("<", .less), ("<=", .lessEqual)]

/-- The bytes that may form a token of a kind. -/
inductive TokenRule : Kind → List UInt8 → Prop where
  | fixed {text kind} (h : (text, kind) ∈ Kind.fixed) : TokenRule kind (spelling text)
  | reserved {text kind} (h : (text, kind) ∈ Kind.reserved) : TokenRule kind (spelling text)
  | identifier {b rest} (hb : isWordStart b) (hrest : ∀ c ∈ rest, isWordPart c)
      (hfree : ∀ text kind, (text, kind) ∈ Kind.reserved → b :: rest ≠ spelling text) :
      TokenRule .identifier (b :: rest)
  | whole {digits} (hne : digits ≠ []) (h : ∀ d ∈ digits, isDigit d) : TokenRule .number digits
  | decimal {integral fraction} (hne : integral ≠ []) (h : ∀ d ∈ integral, isDigit d)
      (hne' : fraction ≠ []) (h' : ∀ d ∈ fraction, isDigit d) :
      TokenRule .number (integral ++ ascii '.' :: fraction)
  | string {body} (h : ∀ b ∈ body, b ≠ ascii '"') :
      TokenRule .string (ascii '"' :: body ++ [ascii '"'])

/-- The bytes that separate tokens: one blank, or a comment. -/
inductive BlankRule : List UInt8 → Prop where
  | space {b} (h : b ∈ spelling " \r\t\n") : BlankRule [b]
  | comment {body} (h : ∀ b ∈ body, b ≠ lineFeed) : BlankRule (spelling "//" ++ body)

/-- The number that the text of a numeral spells: the digits read as one whole number, with the
point moved to the left by as many places as there are digits after it. -/
def numeralValue (text : String) : Float :=
  let integral := text.toList.takeWhile (· ≠ '.')
  let fraction := (text.toList.dropWhile (· ≠ '.')).drop 1
  Float.ofScientific (Nat.ofDigitChars 10 (integral ++ fraction) 0) true fraction.length

/-- The literal of a token is what its lexeme says. -/
def Token.LiteralFits (t : Token) : Prop :=
  match t.kind with
  | .string => ∃ text, t.literal = some (.text text) ∧ t.lexeme = "\"" ++ text ++ "\""
  | .number => t.literal = some (.number (numeralValue t.lexeme))
  | _ => t.literal = none

/-! ## 2. Bytes and characters -/

theorem eq_ascii_of_ofUInt8 {b : UInt8} {c : Char} (h : Char.ofUInt8 b = c) : b = ascii c := by
  subst h
  show b = b.toUInt32.toUInt8
  simp

theorem ascii_ofUInt8 (b : UInt8) : ascii (Char.ofUInt8 b) = b :=
  (eq_ascii_of_ofUInt8 rfl).symm

theorem lt_of_isDigit {b : UInt8} (h : isDigit b) : b < 0x80 := by
  simp only [isDigit, Bool.and_eq_true, decide_eq_true_eq] at h
  simp only [UInt8.lt_iff_toNat_lt, UInt8.le_iff_toNat_le] at *
  have h57 : (57 : UInt8).toNat = 57 := rfl
  have h128 : (0x80 : UInt8).toNat = 128 := rfl
  omega

theorem recognise_digit {b : UInt8} (h : isDigit b) (tail : List UInt8) :
    recognise b tail = recogniseNumber b tail := by
  unfold recognise
  split
  case h_21 => rw [if_pos h]
  all_goals
    rename_i hchar
    rw [eq_ascii_of_ofUInt8 hchar] at h
    exact absurd h (by decide)

theorem recognise_wordStart {b : UInt8} (h : isWordStart b) (tail : List UInt8) :
    recognise b tail = recogniseWord b tail := by
  unfold recognise
  split
  case h_21 =>
    have hdigit : ¬ isDigit b := by
      revert h
      simp [isWordStart, isDigit, ascii, UInt8.le_iff_toNat_le, ← UInt8.toNat_inj]
      omega
    rw [if_neg hdigit, if_pos h]
  all_goals
    rename_i hchar
    rw [eq_ascii_of_ofUInt8 hchar] at h
    exact absurd h (by decide)

theorem lt_of_isWordPart {b : UInt8} (h : isWordPart b) : b < 0x80 := by
  revert h
  simp [isWordPart, isWordStart, isDigit, ascii, UInt8.le_iff_toNat_le, UInt8.lt_iff_toNat_lt,
    ← UInt8.toNat_inj]
  omega

theorem isWordPart_of_isWordStart {b : UInt8} (h : isWordStart b) : isWordPart b := by
  simp [isWordPart, h]

/-- A text of ASCII bytes is spelled with them. -/
theorem spelling_decodeLossy {bytes : List UInt8} (h : ∀ b ∈ bytes, b < 0x80) :
    spelling (decodeLossy bytes) = bytes := by
  rw [decodeLossy_ascii h, spelling]
  simp [ascii_ofUInt8, Function.comp_def]

/-! ## 3. What is recognised follows a rule -/

theorem tokenRule_ofWord {b : UInt8} {rest : List UInt8} (hb : isWordStart b)
    (hrest : ∀ c ∈ rest, isWordPart c) :
    TokenRule (.ofWord (decodeLossy (b :: rest))) (b :: rest) := by
  have hascii : ∀ c ∈ b :: rest, c < 0x80 := by
    intro c hc
    rcases List.mem_cons.mp hc with rfl | hc
    · exact lt_of_isWordPart (isWordPart_of_isWordStart hb)
    · exact lt_of_isWordPart (hrest c hc)
  have hspelling := spelling_decodeLossy hascii
  rcases ofWord_cases (decodeLossy (b :: rest)) with hident | hreserved
  · rw [hident]
    refine .identifier hb hrest fun text kind hmem heq => ?_
    have hword : Kind.ofWord (decodeLossy (spelling text)) ≠ .identifier := by
      have hall : ∀ entry ∈ Kind.reserved,
          Kind.ofWord (decodeLossy (spelling entry.1)) ≠ .identifier := by decide
      exact hall (text, kind) hmem
    rw [heq] at hident
    exact hword hident
  · have hrule := TokenRule.reserved hreserved
    rwa [hspelling] at hrule

theorem ofUInt8_ne_point {d : UInt8} (h : isDigit d) : Char.ofUInt8 d ≠ '.' := by
  intro heq
  rw [eq_ascii_of_ofUInt8 heq] at h
  exact absurd h (by decide)

theorem numeral_eq (integral fraction : List UInt8) :
    numeral integral fraction = Float.ofScientific
      (Nat.ofDigitChars 10 (integral.map Char.ofUInt8 ++ fraction.map Char.ofUInt8) 0) true
      fraction.length := by
  rw [← List.map_append, Nat.ofDigitChars, List.foldl_map]
  rfl

/-- The digits before the point are those of the whole part. -/
theorem numeralValue_append {integral : List UInt8} (h : ∀ d ∈ integral, isDigit d)
    {rest : List UInt8} (hrest : ∀ b ∈ rest, b < 0x80) {fraction : List UInt8}
    (htake : (rest.map Char.ofUInt8).takeWhile (· ≠ '.') = [])
    (hdrop : ((rest.map Char.ofUInt8).dropWhile (· ≠ '.')).drop 1 =
      fraction.map Char.ofUInt8) :
    numeralValue (decodeLossy (integral ++ rest)) = numeral integral fraction := by
  have hchars : ∀ c ∈ integral.map Char.ofUInt8, (decide (c ≠ '.')) = true := by
    simpa using fun d hd => ofUInt8_ne_point (h d hd)
  have hascii : ∀ b ∈ integral ++ rest, b < 0x80 := by
    intro b hb
    rcases List.mem_append.mp hb with hb | hb
    · exact lt_of_isDigit (h b hb)
    · exact hrest b hb
  rw [numeralValue, numeral_eq, decodeLossy_ascii hascii, String.toList_ofList, List.map_append,
    List.takeWhile_append_of_pos hchars, List.dropWhile_append_of_pos hchars, htake, hdrop,
    List.append_nil, List.length_map]

theorem numeralValue_whole {digits : List UInt8} (h : ∀ d ∈ digits, isDigit d) :
    numeralValue (decodeLossy digits) = numeral digits [] := by
  have hrest : ∀ b ∈ ([] : List UInt8), b < 0x80 := by simp
  have hvalue := @numeralValue_append digits h [] hrest [] rfl rfl
  rwa [List.append_nil] at hvalue

theorem numeralValue_decimal {integral fraction : List UInt8} (h : ∀ d ∈ integral, isDigit d)
    (h' : ∀ d ∈ fraction, isDigit d) :
    numeralValue (decodeLossy (integral ++ ascii '.' :: fraction)) = numeral integral fraction := by
  have hpoint : Char.ofUInt8 (ascii '.') = '.' := by decide
  refine numeralValue_append h ?_ (by simp [hpoint]) (by simp [hpoint])
  intro b hb
  rcases List.mem_cons.mp hb with rfl | hb
  · decide
  · exact lt_of_isDigit (h' b hb)

theorem drop_length_takeWhile (p : UInt8 → Bool) (bytes : List UInt8) :
    bytes.drop (bytes.takeWhile p).length = bytes.dropWhile p := by
  induction bytes with
  | nil => rfl
  | cons b bytes ih => by_cases hb : p b <;> simp [hb, ih]

/-- What a fraction is: nothing, or digits after a point. -/
theorem fractionOf_cases (bytes : List UInt8) :
    fractionOf bytes = [] ∨ fractionOf bytes ≠ [] ∧
      ∃ rest, bytes = ascii '.' :: rest ∧ fractionOf bytes = rest.takeWhile isDigit := by
  cases bytes with
  | nil => exact .inl rfl
  | cons point rest =>
    rw [fractionOf]
    split
    · rename_i hpoint
      by_cases hnil : rest.takeWhile isDigit = []
      · exact .inl hnil
      · exact .inr ⟨hnil, rest, by rw [eq_of_beq hpoint], rfl⟩
    · exact .inl rfl

/-- The bytes of a number with a fraction. -/
theorem take_decimal {tail rest : List UInt8}
    (hafter : tail.drop (tail.takeWhile isDigit).length = ascii '.' :: rest) :
    tail.take ((tail.takeWhile isDigit).length + 1 + (rest.takeWhile isDigit).length) =
      tail.takeWhile isDigit ++ ascii '.' :: rest.takeWhile isDigit := by
  rw [Nat.add_assoc, List.take_add, take_length_takeWhile, hafter, Nat.add_comm 1,
    List.take_succ_cons, take_length_takeWhile]

/-- A number is digits, and digits after a point if there is a fraction. -/
theorem fits_recogniseNumber {b : UInt8} {tail : List UInt8} (hb : isDigit b) {kind : Kind}
    {literal : Option Literal} {length : Nat}
    (h : recogniseNumber b tail = (.token kind literal, length)) (line : Nat) :
    TokenRule kind (b :: tail.take length) ∧
      (Token.mk kind (decodeLossy (b :: tail.take length)) literal line).LiteralFits := by
  have hintegral : ∀ d ∈ b :: tail.takeWhile isDigit, isDigit d := by
    intro d hd
    rcases List.mem_cons.mp hd with rfl | hd
    · exact hb
    · exact List.mem_takeWhile_imp hd
  rw [recogniseNumber_eq] at h
  rcases fractionOf_cases (tail.drop (tail.takeWhile isDigit).length) with
    hnil | ⟨hne, rest, hafter, hfraction⟩
  · simp only [hnil, List.isEmpty_nil, if_true] at h
    cases h
    rw [take_length_takeWhile]
    exact ⟨.whole (by simp) hintegral, by simp [Token.LiteralFits, numeralValue_whole hintegral]⟩
  · simp only [List.isEmpty_eq_false_iff.mpr hne, Bool.false_eq_true, if_false] at h
    rw [hfraction] at h hne
    cases h
    have hdigits : ∀ d ∈ rest.takeWhile isDigit, isDigit d := fun d => List.mem_takeWhile_imp
    rw [take_decimal hafter, ← List.cons_append]
    exact ⟨.decimal (by simp) hintegral hne hdigits,
      by simp only [Token.LiteralFits, numeralValue_decimal hintegral hdigits]⟩

/-- A string ends at the first quote. -/
theorem recogniseString_closed {tail : List UInt8} {kind : Kind} {literal : Option Literal}
    {length : Nat} (h : recogniseString tail = (.token kind literal, length)) :
    ∃ body : List UInt8, (∀ b ∈ body, b ≠ ascii '"') ∧
      ascii '"' :: tail.take length = ascii '"' :: body ++ [ascii '"'] ∧
      kind = .string ∧ literal = some (.text (decodeLossy body)) := by
  have hbody : ∀ b ∈ tail.takeWhile (· != ascii '"'), b ≠ ascii '"' := by
    intro b hb
    simpa using List.mem_takeWhile_imp hb
  unfold recogniseString at h
  dsimp only at h
  split at h
  · cases h
  · rename_i quote rest hdrop
    cases h
    have hquote : quote = ascii '"' := by
      have hhead := List.head?_dropWhile_not (· != ascii '"') tail
      rw [← drop_length_takeWhile, hdrop] at hhead
      simpa using hhead
    refine ⟨_, hbody, ?_, rfl, rfl⟩
    rw [List.take_add, take_length_takeWhile, hdrop, hquote, List.cons_append]
    rfl

theorem fits_recogniseString {tail : List UInt8} {kind : Kind} {literal : Option Literal}
    {length : Nat} (h : recogniseString tail = (.token kind literal, length)) (line : Nat) :
    TokenRule kind (ascii '"' :: tail.take length) ∧
      (Token.mk kind (decodeLossy (ascii '"' :: tail.take length)) literal line).LiteralFits := by
  obtain ⟨body, hbody, hbytes, rfl, rfl⟩ := recogniseString_closed h
  rw [hbytes]
  refine ⟨.string hbody, _, rfl, ?_⟩
  rw [decodeLossy_enclosed (by decide)]
  rfl

theorem literalFits_none {kind : Kind} (hkind : kind ∉ [.number, .string]) (lexeme : String)
    (line : Nat) : (Token.mk kind lexeme none line).LiteralFits := by
  cases kind <;> simp [Token.LiteralFits] at hkind ⊢

theorem tokenRule_withEquals {c : Char} {tail : List UInt8} {long short kind : Kind}
    {literal : Option Literal} {length : Nat} (hlong : (String.ofList [c, '='], long) ∈ Kind.fixed)
    (hshort : (String.singleton c, short) ∈ Kind.fixed)
    (h : withEquals long short tail = (.token kind literal, length)) :
    TokenRule kind (ascii c :: tail.take length) := by
  unfold withEquals at h
  split at h <;> cases h
  · rename_i hnext
    obtain ⟨rest, rfl⟩ := List.head?_eq_some_iff.mp hnext
    simpa [spelling] using TokenRule.fixed hlong
  · simpa [spelling] using TokenRule.fixed hshort

/-- What is recognised as a token follows the rule of its kind. -/
theorem tokenRule_recognise {b : UInt8} {tail : List UInt8} {kind : Kind}
    {literal : Option Literal} {length : Nat}
    (h : recognise b tail = (.token kind literal, length)) :
    TokenRule kind (b :: tail.take length) := by
  have hsingle : ∀ c kind', b = ascii c → (String.singleton c, kind') ∈ Kind.fixed →
      TokenRule kind' (b :: tail.take 0) := by
    intro c kind' hb hmem
    simpa [spelling, hb] using TokenRule.fixed hmem
  unfold recognise at h
  split at h
  case h_11 hchar | h_12 hchar | h_13 hchar | h_14 hchar =>
    rw [eq_ascii_of_ofUInt8 hchar]
    exact tokenRule_withEquals (by decide) (by decide) h
  case h_15 | h_16 | h_17 | h_18 => cases h
  case h_19 hchar =>
    unfold recogniseSlash at h
    split at h <;> cases h
    exact hsingle '/' _ (eq_ascii_of_ofUInt8 hchar) (by decide)
  case h_20 hchar =>
    rw [eq_ascii_of_ofUInt8 hchar]
    exact (fits_recogniseString h 0).1
  case h_21 =>
    split at h
    · rename_i hdigit
      exact (fits_recogniseNumber hdigit h 0).1
    · split at h
      · rename_i hword
        cases h
        rw [take_length_takeWhile]
        exact tokenRule_ofWord hword fun c hc => List.mem_takeWhile_imp hc
      · cases h
  all_goals
    rename_i hchar
    cases h
    exact hsingle _ _ (eq_ascii_of_ofUInt8 hchar) (by decide)

/-- The first byte of a number is a digit. -/
theorem TokenRule.isDigit_of_number {b : UInt8} {rest : List UInt8}
    (h : TokenRule .number (b :: rest)) : isDigit b := by
  generalize hbytes : b :: rest = bytes at h
  generalize hkind : Kind.number = kind at h
  cases h with
  | fixed h => subst hkind; simp [Kind.fixed] at h
  | reserved h => subst hkind; simp [Kind.reserved] at h
  | identifier => cases hkind
  | string => cases hkind
  | whole hne h => subst hbytes; exact h b (by simp)
  | decimal hne h =>
    obtain ⟨d, digits, rfl⟩ := List.exists_cons_of_ne_nil hne
    rw [List.cons_append] at hbytes
    cases hbytes
    exact h _ (by simp)

/-- The first byte of a string is a quote. -/
theorem TokenRule.eq_quote_of_string {b : UInt8} {rest : List UInt8}
    (h : TokenRule .string (b :: rest)) : b = ascii '"' := by
  generalize hbytes : b :: rest = bytes at h
  generalize hkind : Kind.string = kind at h
  cases h with
  | fixed h => subst hkind; simp [Kind.fixed] at h
  | reserved h => subst hkind; simp [Kind.reserved] at h
  | identifier | whole | decimal => cases hkind
  | string => cases hbytes; rfl

/-- The literal of what is recognised as a token is what its bytes say. -/
theorem literalFits_recognise {b : UInt8} {tail : List UInt8} {kind : Kind}
    {literal : Option Literal} {length : Nat}
    (h : recognise b tail = (.token kind literal, length)) (line : Nat) :
    (Token.mk kind (decodeLossy (b :: tail.take length)) literal line).LiteralFits := by
  have hrule := tokenRule_recognise h
  cases literate_of_recognise h with
  | none hkind => exact literalFits_none hkind _ _
  | number =>
    have hdigit := hrule.isDigit_of_number
    rw [recognise_digit hdigit] at h
    exact (fits_recogniseNumber hdigit h line).2
  | text =>
    have hquote := hrule.eq_quote_of_string
    subst hquote
    exact (fits_recogniseString h line).2

/-! ## 4. What follows a rule is recognised -/

/-- A stretch of bytes of a class is not longer than the longest one. -/
theorem length_le_takeWhile {p : UInt8 → Bool} {stretch bytes : List UInt8}
    (h : ∀ b ∈ stretch, p b = true) (hbegins : stretch <+: bytes) :
    stretch.length ≤ (bytes.takeWhile p).length := by
  obtain ⟨rest, rfl⟩ := hbegins
  rw [List.takeWhile_append_of_pos h, List.length_append]
  omega

/-- Whether a lexeme is a fault. -/
def Lexeme.isFault : Lexeme → Bool
  | .blank => false
  | .token _ _ => false
  | .unterminated => true
  | .unexpected => true

theorem isFault_withEquals (long short : Kind) (tail : List UInt8) :
    (withEquals long short tail).1.isFault = false := by
  unfold withEquals
  split <;> rfl

theorem isFault_recogniseSlash (tail : List UInt8) : (recogniseSlash tail).1.isFault = false := by
  unfold recogniseSlash
  split <;> rfl

/-- Something begins at a byte, and it takes in at least the given bytes. -/
def Takes (bytes : List UInt8) (b : UInt8) (tail : List UInt8) : Prop :=
  (recognise b tail).1.isFault = false ∧ bytes.length ≤ (recognise b tail).2 + 1

theorem takes_fixed {text : String} {kind : Kind} (h : (text, kind) ∈ Kind.fixed) {b : UInt8}
    {tail : List UInt8} (hbegins : spelling text <+: b :: tail) :
    Takes (spelling text) b tail := by
  simp only [Kind.fixed, List.mem_cons, List.not_mem_nil, or_false, Prod.mk.injEq] at h
  rcases h with h | h | h | h | h | h | h | h | h | h | h | h | h | h | h | h | h | h | h
  all_goals
    obtain ⟨rfl, -⟩ := h
    obtain ⟨rest, hrest⟩ := hbegins
    cases hrest
    first
      | exact ⟨rfl, Nat.le_refl _⟩
      | exact ⟨isFault_withEquals _ _ _, by simp [spelling]⟩
      | exact ⟨isFault_recogniseSlash _, by simp [spelling]⟩

theorem takes_word {b : UInt8} {rest tail : List UInt8} (hb : isWordStart b)
    (hrest : ∀ c ∈ rest, isWordPart c) (hbegins : rest <+: tail) : Takes (b :: rest) b tail := by
  have hlength := length_le_takeWhile hrest hbegins
  rw [Takes, recognise_wordStart hb]
  exact ⟨rfl, Nat.succ_le_succ hlength⟩

theorem takes_reserved {text : String} {kind : Kind} (h : (text, kind) ∈ Kind.reserved) {b : UInt8}
    {tail : List UInt8} (hbegins : spelling text <+: b :: tail) :
    Takes (spelling text) b tail := by
  have hletters : ∀ entry ∈ Kind.reserved, (spelling entry.1).head?.any isWordStart = true ∧
      ∀ c ∈ (spelling entry.1).tail, isWordPart c = true := by decide +kernel
  obtain ⟨hhead, htail⟩ := hletters (text, kind) h
  dsimp only at hhead htail
  generalize spelling text = bytes at hbegins hhead htail ⊢
  cases bytes with
  | nil => simp at hhead
  | cons c rest =>
    obtain ⟨rfl, hrest⟩ := List.cons_prefix_cons.mp hbegins
    exact takes_word (by simpa using hhead) htail hrest

theorem length_recogniseNumber_whole (b : UInt8) (tail : List UInt8) :
    (tail.takeWhile isDigit).length ≤ (recogniseNumber b tail).2 := by
  rw [recogniseNumber_eq]
  dsimp only
  split <;> omega

theorem takes_whole {digits : List UInt8} (hne : digits ≠ []) (h : ∀ d ∈ digits, isDigit d)
    {b : UInt8} {tail : List UInt8} (hbegins : digits <+: b :: tail) : Takes digits b tail := by
  obtain ⟨d, rest, rfl⟩ := List.exists_cons_of_ne_nil hne
  obtain ⟨rfl, hrest⟩ := List.cons_prefix_cons.mp hbegins
  obtain ⟨hd, hall⟩ := List.forall_mem_cons.mp h
  have hlength := length_le_takeWhile hall hrest
  have hnumber := length_recogniseNumber_whole d tail
  rw [Takes, recognise_digit hd]
  exact ⟨rfl, by simp; omega⟩

theorem takes_decimal {integral fraction : List UInt8} (hne : integral ≠ [])
    (h : ∀ d ∈ integral, isDigit d) (hne' : fraction ≠ []) (h' : ∀ d ∈ fraction, isDigit d)
    {b : UInt8} {tail : List UInt8} (hbegins : integral ++ ascii '.' :: fraction <+: b :: tail) :
    Takes (integral ++ ascii '.' :: fraction) b tail := by
  obtain ⟨d, digits, rfl⟩ := List.exists_cons_of_ne_nil hne
  rw [List.cons_append] at hbegins
  obtain ⟨rfl, ⟨rest, rfl⟩⟩ := List.cons_prefix_cons.mp hbegins
  obtain ⟨hd, hdigits⟩ := List.forall_mem_cons.mp h
  have hlength := length_le_takeWhile h' (List.prefix_append fraction rest)
  have hpoint : isDigit (ascii '.') = false := by decide
  -- The digits before the point are the longest stretch of digits.
  have hintegral : (digits ++ ascii '.' :: fraction ++ rest).takeWhile isDigit = digits := by
    rw [List.append_assoc, List.takeWhile_append_of_pos hdigits, List.cons_append,
      List.takeWhile_cons_of_neg (by simp [hpoint]), List.append_nil]
  have hfraction : fractionOf (ascii '.' :: fraction ++ rest) =
      (fraction ++ rest).takeWhile isDigit := by
    rw [List.cons_append, fractionOf, if_pos (by decide)]
  have hnonempty : ((fraction ++ rest).takeWhile isDigit).isEmpty = false := by
    rw [List.isEmpty_eq_false_iff, ← List.length_pos_iff]
    have hpos := List.length_pos_iff.mpr hne'
    omega
  rw [Takes, recognise_digit hd, recogniseNumber_eq]
  dsimp only
  rw [hintegral, List.append_assoc, List.drop_left, hfraction, hnonempty]
  refine ⟨rfl, ?_⟩
  simp
  omega

theorem takes_string {body : List UInt8} (h : ∀ c ∈ body, c ≠ ascii '"') {b : UInt8}
    {tail : List UInt8} (hbegins : ascii '"' :: body ++ [ascii '"'] <+: b :: tail) :
    Takes (ascii '"' :: body ++ [ascii '"']) b tail := by
  rw [List.cons_append] at hbegins
  obtain ⟨rfl, ⟨rest, rfl⟩⟩ := List.cons_prefix_cons.mp hbegins
  have hbody : (body ++ [ascii '"'] ++ rest).takeWhile (· != ascii '"') = body := by
    rw [List.append_assoc, List.takeWhile_append_of_pos (by simpa using h), List.cons_append,
      List.takeWhile_cons_of_neg (by simp), List.append_nil]
  show (recogniseString _).1.isFault = false ∧ _ ≤ (recogniseString _).2 + 1
  unfold recogniseString
  rw [hbody]
  dsimp only
  rw [List.append_assoc, List.drop_left]
  exact ⟨rfl, by simp⟩

/-- What follows a rule is recognised, and nothing longer is. -/
theorem takes_of_tokenRule {kind : Kind} {bytes : List UInt8} (h : TokenRule kind bytes) {b : UInt8}
    {tail : List UInt8} (hbegins : bytes <+: b :: tail) : Takes bytes b tail := by
  cases h with
  | fixed h => exact takes_fixed h hbegins
  | reserved h => exact takes_reserved h hbegins
  | identifier hb hrest =>
    obtain ⟨rfl, hrest'⟩ := List.cons_prefix_cons.mp hbegins
    exact takes_word hb hrest hrest'
  | whole hne h => exact takes_whole hne h hbegins
  | decimal hne h hne' h' => exact takes_decimal hne h hne' h' hbegins
  | string h => exact takes_string h hbegins

theorem takes_of_blankRule {bytes : List UInt8} (h : BlankRule bytes) {b : UInt8}
    {tail : List UInt8} (hbegins : bytes <+: b :: tail) : (recognise b tail).1 = .blank := by
  cases h with
  | space h =>
    obtain ⟨rfl, -⟩ := List.cons_prefix_cons.mp hbegins
    simp [spelling] at h
    rcases h with rfl | rfl | rfl | rfl <;> rfl
  | comment h =>
    obtain ⟨rest, hrest⟩ := hbegins
    cases hrest
    rfl

/-! ## 5. Whole sources -/

theorem Tiles.mem {source : List UInt8} {low high : Nat} {xs : List Extent}
    (h : Tiles source low xs high) {x : Extent} (hx : x ∈ xs) :
    x.piece.bytes = source.extract x.start x.stop ∧ x.start < x.stop ∧ x.Recognised source := by
  induction xs generalizing low with
  | nil => simp at hx
  | cons y ys ih =>
    obtain ⟨-, hlt, hbytes, hrecognised, hrest⟩ := h
    rcases List.mem_cons.mp hx with rfl | hmem
    · exact ⟨hbytes, hlt, hrecognised⟩
    · exact ih hrest hmem

/-- Where an extent starts, its bytes are what is recognised there. -/
theorem exists_recognise {source : List UInt8} {x : Extent} (hx : x ∈ extents source) :
    ∃ b tail length, source.drop x.start = b :: tail ∧
      recognise b tail = (x.piece.lexeme, length) ∧ x.piece.bytes = b :: tail.take length := by
  obtain ⟨hbytes, hlt, b, tail, hdrop, hrecognise⟩ := (tiles_extents source).mem hx
  refine ⟨b, tail, x.stop - (x.start + 1), hdrop, hrecognise, ?_⟩
  have hwidth : x.stop - x.start = x.stop - (x.start + 1) + 1 := by omega
  rw [hbytes, List.extract_eq_take_drop, hdrop, hwidth, List.take_succ_cons]

/-- Scanning is by the longest match. -/
theorem scan_longest_match (source : List UInt8) :
    scan source = (extents source).filterMap (Extent.item? source) ++
        [.ok (.endOfInput (1 + lineFeeds source))] ∧
      ∀ x ∈ extents source, x.piece.bytes <+: source.drop x.start ∧
        (∀ token, x.item? source = some (.ok token) →
          TokenRule token.kind x.piece.bytes ∧
          (∀ kind bytes, bytes <+: source.drop x.start → TokenRule kind bytes →
            bytes.length ≤ x.piece.bytes.length) ∧
          token.lexeme = decodeLossy x.piece.bytes ∧ token.LiteralFits) ∧
        ∀ fault, x.item? source = some (.error fault) → ∀ bytes, bytes <+: source.drop x.start →
          (∀ kind, ¬ TokenRule kind bytes) ∧ ¬ BlankRule bytes := by
  refine ⟨?_, ?_⟩
  · rw [scan_eq, itemsWithin_extents, lastLine_eq]
  intro x hx
  obtain ⟨b, tail, length, hdrop, hrecognise, hbytes⟩ := exists_recognise hx
  have hlength := length_recognise b tail
  rw [hrecognise] at hlength
  dsimp only at hlength
  rw [hdrop]
  refine ⟨?_, ?_, ?_⟩
  · rw [hbytes, List.cons_prefix_cons]
    exact ⟨rfl, List.take_prefix length tail⟩
  · intro token hitem
    unfold Extent.item? Piece.item? at hitem
    dsimp only at hitem
    cases hlexeme : x.piece.lexeme with
    | blank | unterminated | unexpected => rw [hlexeme] at hitem; cases hitem
    | token kind literal =>
      rw [hlexeme] at hitem hrecognise
      cases hitem
      refine ⟨hbytes ▸ tokenRule_recognise hrecognise, ?_, rfl, ?_⟩
      · intro kind' bytes hbegins hrule
        have htakes := (takes_of_tokenRule hrule hbegins).2
        rw [hrecognise] at htakes
        rw [hbytes, List.length_cons, List.length_take, Nat.min_eq_left hlength]
        exact htakes
      · rw [hbytes]
        exact literalFits_recognise hrecognise _
  · intro fault hitem bytes hbegins
    have hfault : (recognise b tail).1.isFault = true := by
      rw [hrecognise]
      unfold Extent.item? Piece.item? at hitem
      dsimp only at hitem
      cases hlexeme : x.piece.lexeme with
      | blank | token => rw [hlexeme] at hitem; cases hitem
      | unterminated | unexpected => rfl
    refine ⟨fun kind hrule => ?_, fun hblank => ?_⟩
    · rw [(takes_of_tokenRule hrule hbegins).1] at hfault
      cases hfault
    · rw [takes_of_blankRule hblank hbegins] at hfault
      cases hfault

/-- `1.!==`: no fraction without digits, and the longer operator first. -/
example : (extents (spelling "1.!==")).map (fun x => (x.start, x.stop)) =
    [(0, 1), (1, 2), (2, 4), (4, 5)] := by decide

end ScriptLang
