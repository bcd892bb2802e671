/-
ScriptLang.Proofs.Token.Rescanning — the lexemes of a source, written down and
scanned again.

Where a lexeme ends is decided by the bytes after it. A blank decides it for
every lexeme: nothing goes on with a space, except for a string, and that ends
at its own quote. So a lexeme that stands before a space, or at the end, is
scanned as what it is (`recognise_apart`).

A string may have been cut from bytes that are no text. Its lexeme is then not
those bytes, but it still is a quote, a text without quotes and a quote, so
the literal is what stands between them (`recogniseString_encode`).

`rescan_lexemes` puts the lexemes in a row with spaces between them.
-/
import ScriptLang.Proofs.Text.Encoding
import ScriptLang.Proofs.Token.LongestMatch

namespace ScriptLang

open Decimal (isDigit numeral)
open Text.Utf8 (encode encode_append decodeLossy decodeLossy_enclosed)

/-! ## 1. Before a space -/

/-- Nothing, or something that begins with a space. -/
def Apart (after : List UInt8) : Prop :=
  ∀ b ∈ after.head?, b = ascii ' '

section Apart

variable {after tail : List UInt8} {b : UInt8} {kind : Kind} {literal : Option Literal}
variable {lexeme : Lexeme} {length : Nat}

/-- A stretch of bytes of a class ends before a space that is not of the class. -/
theorem takeWhile_apart {p : UInt8 → Bool} (hspace : p (ascii ' ') = false) (hafter : Apart after)
    {bytes : List UInt8} (hbytes : ∀ b ∈ bytes, p b = true) :
    (bytes ++ after).takeWhile p = bytes := by
  rw [List.takeWhile_append_of_pos hbytes]
  cases after with
  | nil => simp
  | cons b rest =>
    have hb : b = ascii ' ' := hafter b (by simp)
    simp [hb, hspace]

theorem withEquals_apart {long short : Kind} (h : withEquals long short tail = (lexeme, length))
    (hafter : Apart after) : withEquals long short (tail.take length ++ after) = (lexeme, length) := by
  unfold withEquals at h ⊢
  split at h <;> cases h
  · rename_i hequals
    obtain ⟨rest, rfl⟩ := List.head?_eq_some_iff.mp hequals
    rfl
  · rw [List.take_zero, List.nil_append, if_neg]
    intro hhead
    exact absurd (hafter _ hhead) (by decide)

theorem recogniseSlash_apart (h : recogniseSlash tail = (.token kind literal, length))
    (hafter : Apart after) :
    recogniseSlash (tail.take length ++ after) = (.token kind literal, length) := by
  unfold recogniseSlash at h ⊢
  split at h <;> cases h
  rw [List.take_zero, List.nil_append, if_neg]
  intro hhead
  exact absurd (hafter _ hhead) (by decide)

theorem recogniseWord_apart (h : recogniseWord b tail = (lexeme, length)) (hafter : Apart after) :
    recogniseWord b (tail.take length ++ after) = (lexeme, length) := by
  have hparts : ∀ c ∈ tail.takeWhile isWordPart, isWordPart c = true :=
    fun c hc => List.mem_takeWhile_imp hc
  unfold recogniseWord at h ⊢
  cases h
  rw [take_length_takeWhile, takeWhile_apart (by decide) hafter hparts]

theorem fractionOf_apart (hafter : Apart after) : fractionOf after = [] := by
  cases after with
  | nil => rfl
  | cons b rest =>
    have hb : b = ascii ' ' := hafter b (by simp)
    rw [hb]
    rfl

theorem recogniseNumber_apart (h : recogniseNumber b tail = (lexeme, length))
    (hafter : Apart after) : recogniseNumber b (tail.take length ++ after) = (lexeme, length) := by
  have hdigits : ∀ d ∈ tail.takeWhile isDigit, isDigit d = true :=
    fun d hd => List.mem_takeWhile_imp hd
  rw [recogniseNumber_eq] at h ⊢
  rcases fractionOf_cases (tail.drop (tail.takeWhile isDigit).length) with
    hnil | ⟨hne, rest, hrest, hfraction⟩
  · simp only [hnil, List.isEmpty_nil, if_true] at h
    cases h
    rw [take_length_takeWhile, takeWhile_apart (by decide) hafter hdigits]
    dsimp only
    rw [List.drop_left, fractionOf_apart hafter]
    rfl
  · simp only [List.isEmpty_eq_false_iff.mpr hne, Bool.false_eq_true, if_false] at h
    rw [hfraction] at h hne
    cases h
    have hfractional : ∀ d ∈ rest.takeWhile isDigit, isDigit d = true :=
      fun d hd => List.mem_takeWhile_imp hd
    -- the digits before the point stop at it, those after it at the space
    have hintegral : (tail.takeWhile isDigit ++ ascii '.' :: rest.takeWhile isDigit ++ after).takeWhile
        isDigit = tail.takeWhile isDigit := by
      rw [List.append_assoc, List.takeWhile_append_of_pos hdigits, List.cons_append,
        List.takeWhile_cons_of_neg (by decide), List.append_nil]
    have hfound : fractionOf (ascii '.' :: rest.takeWhile isDigit ++ after) =
        rest.takeWhile isDigit := by
      rw [List.cons_append, fractionOf, if_pos (by decide),
        takeWhile_apart (by decide) hafter hfractional]
    rw [take_decimal hrest]
    dsimp only
    rw [hintegral, List.append_assoc, List.drop_left, hfound,
      if_neg (by simpa [List.isEmpty_iff] using hne)]

/-- What is recognised as a token and is no string is recognised as the same token before a space. -/
theorem recognise_apart (h : recognise b tail = (.token kind literal, length))
    (hquote : b ≠ ascii '"') (hafter : Apart after) :
    recognise b (tail.take length ++ after) = (.token kind literal, length) := by
  unfold recognise at h ⊢
  split at h
  case h_11 | h_12 | h_13 | h_14 => exact withEquals_apart h hafter
  case h_19 => exact recogniseSlash_apart h hafter
  case h_20 hchar => exact absurd (eq_ascii_of_ofUInt8 hchar) hquote
  case h_21 =>
    split at h
    · rename_i hdigit
      rw [if_pos hdigit]
      exact recogniseNumber_apart h hafter
    · rename_i hdigit
      rw [if_neg hdigit]
      split at h
      · rename_i hword
        rw [if_pos hword]
        exact recogniseWord_apart h hafter
      · cases h
  all_goals exact h

end Apart

/-! ## 2. Lexemes -/

/-- A text without quotes, between quotes, is the literal of a string. -/
theorem recogniseString_encode {text : String} (h : '"' ∉ text.toList) (after : List UInt8) :
    recogniseString (encode text ++ ascii '"' :: after) =
      (.token .string (some (.text text)), (encode text).length + 1) := by
  have hbody : ∀ b ∈ encode text, (b != ascii '"') = true := by
    intro b hb
    rw [bne_iff_ne]
    rintro rfl
    exact h ((Text.Utf8.mem_encode_ascii (by decide)).mp hb)
  have htake : (encode text ++ ascii '"' :: after).takeWhile (· != ascii '"') = encode text := by
    rw [List.takeWhile_append_of_pos hbody, List.takeWhile_cons_of_neg (by simp), List.append_nil]
  unfold recogniseString
  rw [htake]
  dsimp only
  rw [List.drop_left, Text.Utf8.decodeLossy_encode]

/-- Written down before a space or at the end, the lexeme of a token is scanned as this token. -/
def Rescans (kind : Kind) (literal : Option Literal) (lexeme : String) : Prop :=
  ∃ b rest, encode lexeme = b :: rest ∧
    ∀ after, Apart after → recognise b (rest ++ after) = (.token kind literal, rest.length)

/-- Tokens that are no strings are made of ASCII bytes. -/
theorem ascii_of_tokenRule {kind : Kind} {bytes : List UInt8} (h : TokenRule kind bytes)
    (hquote : bytes.head? ≠ some (ascii '"')) : ∀ b ∈ bytes, b < 0x80 := by
  cases h with
  | @fixed text kind h =>
    have hall : ∀ entry ∈ Kind.fixed, ∀ b ∈ spelling entry.1, b < 0x80 := by
      decide +kernel
    exact hall (text, kind) h
  | @reserved text kind h =>
    have hall : ∀ entry ∈ Kind.reserved, ∀ b ∈ spelling entry.1, b < 0x80 := by decide +kernel
    exact hall (text, kind) h
  | identifier hb hrest =>
    refine List.forall_mem_cons.mpr ⟨?_, fun c hc => lt_of_isWordPart (hrest c hc)⟩
    exact lt_of_isWordPart (isWordPart_of_isWordStart hb)
  | whole hne h => exact fun b hb => lt_of_isDigit (h b hb)
  | decimal hne h hne' h' =>
    refine List.forall_mem_append.mpr ⟨fun b hb => lt_of_isDigit (h b hb), ?_⟩
    exact List.forall_mem_cons.mpr ⟨by decide, fun b hb => lt_of_isDigit (h' b hb)⟩
  | string h => exact absurd rfl hquote

/-- Whatever is recognised as a token, its text is scanned as this token. -/
theorem rescans_of_recognise {b : UInt8} {tail : List UInt8} {kind : Kind}
    {literal : Option Literal} {length : Nat}
    (h : recognise b tail = (.token kind literal, length)) :
    Rescans kind literal (decodeLossy (b :: tail.take length)) := by
  by_cases hquote : b = ascii '"'
  · subst hquote
    obtain ⟨body, hbody, hbytes, rfl, rfl⟩ :=
      recogniseString_closed (show recogniseString tail = (.token kind literal, length) from h)
    have hfree : '"' ∉ (decodeLossy body).toList := by
      intro hmem
      rw [decodeLossy, String.toList_ofList] at hmem
      have hbyte := Text.Utf8.mem_of_mem_decodeFrom (by decide) (by decide) body .between trivial hmem
      exact hbody _ hbyte rfl
    have hencode : encode (decodeLossy (ascii '"' :: body ++ [ascii '"'])) =
        ascii '"' :: (encode (decodeLossy body) ++ [ascii '"']) := by
      rw [decodeLossy_enclosed (by decide), encode_append, encode_append]
      rfl
    refine ⟨ascii '"', encode (decodeLossy body) ++ [ascii '"'], by rw [hbytes, hencode], ?_⟩
    intro after _
    show recogniseString _ = _
    rw [List.append_assoc, List.cons_append, List.nil_append, recogniseString_encode hfree]
    simp
  · have hascii := ascii_of_tokenRule (tokenRule_recognise h) (by simpa using hquote)
    refine ⟨b, tail.take length, Text.Utf8.encode_decodeLossy hascii, fun after hafter => ?_⟩
    have hlength : length ≤ tail.length := by
      have hle := length_recognise b tail
      rwa [h] at hle
    rw [recognise_apart h hquote hafter, List.length_take, Nat.min_eq_left hlength]

/-! ## 3. Lexemes in a row -/

/-- What there is to a token besides the line it stands on. -/
def Token.content (t : Token) : Kind × String × Option Literal :=
  (t.kind, t.lexeme, t.literal)

/-- The lexemes of some tokens, with single spaces between them. -/
def lexemesOf (ts : List Token) : String :=
  " ".intercalate (ts.map Token.lexeme)

theorem rescans_of_mem_wordsOf {source : List UInt8} {t : Token} (ht : t ∈ wordsOf source) :
    Rescans t.kind t.literal t.lexeme :=
  forall_mem_wordsOf (P := Rescans)
    (fun _ _ _ _ hlexeme => rescans_of_recognise (Prod.ext hlexeme rfl)) ht

/-- A lexeme that stands before a space or at the end is the first piece. -/
theorem pieces_lexeme {t : Token} (h : Rescans t.kind t.literal t.lexeme) {after : List UInt8}
    (hafter : Apart after) : pieces (encode t.lexeme ++ after) =
      ⟨.token t.kind t.literal, encode t.lexeme⟩ :: pieces after := by
  obtain ⟨b, rest, hbytes, hrecognise⟩ := h
  rw [hbytes, List.cons_append, pieces_cons, hrecognise after hafter, List.take_left, List.drop_left]

theorem pieces_space (bytes : List UInt8) :
    pieces (ascii ' ' :: bytes) = ⟨.blank, [ascii ' ']⟩ :: pieces bytes := by
  rw [pieces_cons]
  rfl

/-- Scanning lexemes with spaces between them gives these lexemes. -/
theorem items_lexemesOf (ts : List Token) (h : ∀ t ∈ ts, Rescans t.kind t.literal t.lexeme)
    (line : Nat) :
    ∃ again : List Token, itemsWithin line (pieces (encode (lexemesOf ts))) = again.map .ok ∧
      again.map Token.content = ts.map Token.content := by
  have hitem : ∀ (t : Token) line, Piece.item? line ⟨.token t.kind t.literal, encode t.lexeme⟩ =
      some (.ok { t with line := line }) := by
    intro t line
    rw [Piece.item?, Text.Utf8.decodeLossy_encode]
  induction ts generalizing line with
  | nil => exact ⟨[], rfl, rfl⟩
  | cons t ts ih =>
    obtain ⟨ht, hts⟩ := List.forall_mem_cons.mp h
    cases ts with
    | nil =>
      have hpieces := pieces_lexeme ht (show Apart [] by simp [Apart])
      rw [List.append_nil] at hpieces
      refine ⟨[{ t with line := line + lineFeeds (encode t.lexeme) }], ?_, rfl⟩
      rw [lexemesOf, List.map_singleton, String.intercalate_singleton, hpieces, itemsWithin, hitem]
      rfl
    | cons t' ts =>
      have hjoined : encode (lexemesOf (t :: t' :: ts)) =
          encode t.lexeme ++ ascii ' ' :: encode (lexemesOf (t' :: ts)) := by
        rw [lexemesOf, List.map_cons, List.map_cons, String.intercalate_cons_cons, encode_append,
          encode_append, List.append_assoc]
        rfl
      obtain ⟨again, hitems, hcontents⟩ := ih hts (line + lineFeeds (encode t.lexeme) + 0)
      refine ⟨{ t with line := line + lineFeeds (encode t.lexeme) } :: again, ?_, ?_⟩
      · rw [hjoined, pieces_lexeme ht (by simp [Apart]), pieces_space, itemsWithin, itemsWithin,
          hitem, List.map_cons, ← hitems]
        rfl
      · rw [List.map_cons, List.map_cons, hcontents]
        rfl

/-- Written down in a row with single spaces between them and scanned again, the lexemes of a source
give the same tokens but for their lines, no fault, and the end of the input. That the source has no
faults itself is not needed. -/
theorem rescan_lexemes (source : List UInt8) :
    let words := (tokensOf (scan source)).filter (·.kind ≠ .endOfInput)
    ∃ (again : List Token) (line : Nat),
      scan (encode (lexemesOf words)) = again.map .ok ++ [.ok (.endOfInput line)] ∧
      again.map Token.content = words.map Token.content := by
  intro words
  have hwords : words = wordsOf source := by
    have hkeep : ∀ t ∈ wordsOf source, decide (t.kind ≠ .endOfInput) = true := by
      intro t ht
      simpa using ne_endOfInput_of_ofWord (ofWord_of_mem_wordsOf ht)
    show (tokensOf (scan source)).filter _ = _
    rw [tokensOf_scan, List.filter_append, List.filter_eq_self.mpr hkeep]
    simp [Token.endOfInput]
  obtain ⟨again, hitems, hcontents⟩ :=
    items_lexemesOf words (fun t ht => rescans_of_mem_wordsOf (hwords ▸ ht)) 1
  exact ⟨again, _, by rw [scan_eq, hitems], hcontents⟩

/-- A string that is no text: the lexemes of `"` `C3` `"x` are `"�"` and `x`. -/
example : lexemesOf (wordsOf [34, 0xC3, 34, 120]) = "\"\uFFFD\" x" := by decide

end ScriptLang
