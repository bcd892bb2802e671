/-
ScriptLang.Proofs.Token.Pieces — the pieces of a source text.

What begins at a byte depends on the bytes after it, but never on what comes
after a line feed, a string apart (`recognise_append`). So a text in which no
string is left open can be cut at the end of a line: the pieces of the whole
are the pieces of the two parts with the line feed between them
(`pieces_join`).

`scan_join_items` says the same of tokens and faults: those of the second part
are further down by as many lines as the first part has.

The other fact is about words. The kind of a word is the kind of its spelling,
so `this` is never a name (`spelled_of_mem_scan`).
-/
import ScriptLang.Proofs.Tree.Relabel
import ScriptLang.Token.Scan

namespace ScriptLang

open Decimal (isDigit numeral)

/-! ## 1. What begins at a byte -/

/-- A stretch of bytes of a class ends at a byte that is not of the class. -/
theorem takeWhile_append_stop {p : UInt8 → Bool} {stop : UInt8} (hstop : p stop = false)
    (bytes rest : List UInt8) : (bytes ++ stop :: rest).takeWhile p = bytes.takeWhile p := by
  induction bytes with
  | nil => simp [hstop]
  | cons b bytes ih => rw [List.cons_append, List.takeWhile_cons, List.takeWhile_cons, ih]

theorem length_takeWhile_le (p : UInt8 → Bool) (bytes : List UInt8) :
    (bytes.takeWhile p).length ≤ bytes.length :=
  (List.takeWhile_sublist p).length_le

theorem take_length_takeWhile (p : UInt8 → Bool) (bytes : List UInt8) :
    bytes.take (bytes.takeWhile p).length = bytes.takeWhile p :=
  (List.prefix_iff_eq_take.mp (List.takeWhile_prefix p)).symm

/-- The digits after a point, if a point comes first. -/
def fractionOf : List UInt8 → List UInt8
  | point :: rest => if point == ascii '.' then rest.takeWhile isDigit else []
  | [] => []

theorem recogniseNumber_eq (digit : UInt8) (tail : List UInt8) :
    recogniseNumber digit tail =
      let integral := tail.takeWhile isDigit
      let fraction := fractionOf (tail.drop integral.length)
      (.token .number (some (.number (numeral (digit :: integral) fraction))),
        if fraction.isEmpty then integral.length
        else integral.length + 1 + fraction.length) := by
  rfl

theorem fractionOf_append (bytes rest : List UInt8) :
    fractionOf (bytes ++ lineFeed :: rest) = fractionOf bytes := by
  cases bytes with
  | nil => rfl
  | cons point bytes =>
    rw [List.cons_append, fractionOf, fractionOf, takeWhile_append_stop (by decide)]

theorem length_fractionOf (bytes : List UInt8) :
    fractionOf bytes = [] ∨ (fractionOf bytes).length + 1 ≤ bytes.length := by
  cases bytes with
  | nil => exact .inl rfl
  | cons point bytes =>
    rw [fractionOf]
    split
    · exact .inr (Nat.succ_le_succ (length_takeWhile_le isDigit bytes))
    · exact .inl rfl

/-- A string that is closed is recognised whatever comes after it. -/
theorem recogniseString_append (tail rest : List UInt8)
    (hclosed : (recogniseString tail).1 ≠ .unterminated) :
    recogniseString (tail ++ rest) = recogniseString tail := by
  have hle := length_takeWhile_le (· != ascii '"') tail
  have hlt : (tail.takeWhile (· != ascii '"')).length < tail.length := by
    refine Nat.lt_of_le_of_ne hle ?_
    intro heq
    refine hclosed ?_
    unfold recogniseString
    simp [heq]
  unfold recogniseString
  rw [List.takeWhile_append, if_neg (Nat.ne_of_lt hlt)]
  dsimp only
  rw [List.drop_append_of_le_length hle]
  cases hdrop : tail.drop (tail.takeWhile (· != ascii '"')).length with
  | nil => exact absurd (List.drop_eq_nil_iff.mp hdrop) (Nat.not_le_of_lt hlt)
  | cons quote after => rfl

/-- What begins at a byte does not depend on the lines after it, except for a string that is
open at the end of the line. -/
theorem recognise_append (b : UInt8) (tail rest : List UInt8)
    (hclosed : (recognise b tail).1 ≠ .unterminated) :
    recognise b (tail ++ lineFeed :: rest) = recognise b tail := by
  have hequals : ∀ long short, withEquals long short (tail ++ lineFeed :: rest) =
      withEquals long short tail := by
    intro long short
    cases tail <;> rfl
  unfold recognise at hclosed ⊢
  split
  case h_11 | h_12 | h_13 | h_14 => exact hequals _ _
  case h_19 =>
    unfold recogniseSlash
    rw [takeWhile_append_stop (by decide)]
    cases tail <;> rfl
  case h_20 hb => exact recogniseString_append tail _ (by simpa [hb] using hclosed)
  case h_21 =>
    unfold recogniseWord recogniseForeign
    rw [recogniseNumber_eq, recogniseNumber_eq]
    simp only [takeWhile_append_stop (by decide : isDigit lineFeed = false),
      takeWhile_append_stop (by decide : isWordPart lineFeed = false),
      takeWhile_append_stop (by decide : isContinuation lineFeed = false),
      List.drop_append_of_le_length (length_takeWhile_le isDigit tail), fractionOf_append]
  all_goals rfl

/-- A lexeme lies within the source. -/
theorem length_recognise (b : UInt8) (tail : List UInt8) :
    (recognise b tail).2 ≤ tail.length := by
  have hequals : ∀ long short, (withEquals long short tail).2 ≤ tail.length := by
    intro long short
    cases tail with
    | nil => exact Nat.le_refl 0
    | cons b tail =>
      unfold withEquals
      split <;> simp
  unfold recognise
  split
  case h_11 | h_12 | h_13 | h_14 => exact hequals _ _
  case h_19 =>
    unfold recogniseSlash
    split
    · exact length_takeWhile_le _ tail
    · exact Nat.zero_le _
  case h_20 =>
    unfold recogniseString
    dsimp only
    split
    · exact length_takeWhile_le _ tail
    next quote after hdrop =>
      have := congrArg List.length hdrop
      simp only [List.length_drop, List.length_cons] at this
      omega
  case h_21 =>
    split
    · rw [recogniseNumber_eq]
      have hfraction := length_fractionOf (tail.drop (tail.takeWhile isDigit).length)
      have hintegral := length_takeWhile_le isDigit tail
      rw [List.length_drop] at hfraction
      dsimp only
      split
      · exact hintegral
      · rename_i hne
        rcases hfraction with hnil | hlength
        · exact absurd (by rw [hnil]; rfl) hne
        · omega
    · split
      · exact length_takeWhile_le isWordPart tail
      · exact length_takeWhile_le isContinuation tail
  all_goals exact Nat.zero_le _

/-! ## 2. Words -/

/-- The kinds of the tokens that are not words. -/
def marks : List Kind :=
  [.leftParen, .rightParen, .leftBrace, .rightBrace, .comma, .dot, .minus, .plus, .semicolon,
   .slash, .star, .bang, .bangEqual, .equal, .equalEqual, .greater, .greaterEqual, .less,
   .lessEqual, .string, .number]

/-- The kind of a token that is a word is the kind of its spelling. -/
theorem kind_of_recognise {b : UInt8} {tail : List UInt8} {kind : Kind} {literal : Option Literal}
    {length : Nat} (h : recognise b tail = (.token kind literal, length)) :
    kind ∈ marks ∨ kind = .ofWord (Text.Utf8.decodeLossy (b :: tail.take length)) := by
  have hequals : ∀ long short, long ∈ marks → short ∈ marks →
      withEquals long short tail = (.token kind literal, length) → kind ∈ marks := by
    intro long short hlong hshort heq
    unfold withEquals at heq
    split at heq <;> cases heq
    · exact hlong
    · exact hshort
  unfold recognise at h
  split at h
  case h_11 | h_12 | h_13 | h_14 => exact .inl (hequals _ _ (by decide) (by decide) h)
  case h_15 | h_16 | h_17 | h_18 => cases h
  case h_19 =>
    unfold recogniseSlash at h
    split at h <;> cases h
    exact .inl (by decide)
  case h_20 =>
    unfold recogniseString at h
    dsimp only at h
    split at h <;> cases h
    exact .inl (by decide)
  case h_21 =>
    split at h
    · cases h
      exact .inl (by decide)
    · split at h <;> cases h
      rw [take_length_takeWhile]
      exact .inr rfl
  all_goals
    cases h
    exact .inl (by decide)

theorem ofWord_cases (word : String) :
    Kind.ofWord word = .identifier ∨ (word, Kind.ofWord word) ∈ Kind.reserved := by
  unfold Kind.ofWord
  cases hlookup : Kind.reserved.lookup word with
  | none => exact .inl rfl
  | some kind =>
    obtain ⟨before, after, hreserved, -⟩ := List.lookup_eq_some_iff.mp hlookup
    refine .inr ?_
    rw [hreserved]
    simp

/-- The token is the word `this` exactly if it is spelled so, as far as words go. -/
structure Spelled (t : Token) : Prop where
  self : t.kind = .thisWord → t.lexeme = selfName
  name : t.kind = .identifier → t.lexeme ≠ selfName

theorem spelled_of_ofWord {t : Token} (h : t.kind ∈ marks ∨ t.kind = .ofWord t.lexeme) :
    Spelled t where
  self hkind := by
    rw [hkind] at h
    rcases h with hmark | hword
    · exact absurd hmark (by decide)
    · rcases ofWord_cases t.lexeme with hcase | hcase <;> rw [← hword] at hcase
      · cases hcase
      · simpa [Kind.reserved, selfName] using hcase
  name hkind heq := by
    rw [hkind, heq] at h
    exact absurd h (by decide)

theorem ne_endOfInput_of_ofWord {t : Token} (h : t.kind ∈ marks ∨ t.kind = .ofWord t.lexeme) :
    t.kind ≠ .endOfInput := by
  intro hkind
  rw [hkind] at h
  rcases h with hmark | hword
  · exact absurd hmark (by decide)
  · rcases ofWord_cases t.lexeme with hcase | hcase <;> rw [← hword] at hcase
    · cases hcase
    · simp [Kind.reserved] at hcase

/-- A number has the value of a number, a string that of a text, and nothing else has a value. -/
inductive Literate : Kind → Option Literal → Prop where
  | number {x} : Literate .number (some (.number x))
  | text {s} : Literate .string (some (.text s))
  | none {kind} : kind ∉ [.number, .string] → Literate kind none

theorem literate_ofWord (word : String) : Literate (.ofWord word) none := by
  refine .none fun hkind => ?_
  rcases ofWord_cases word with hcase | hcase
  · rw [hcase] at hkind
    exact absurd hkind (by decide)
  · simp only [List.mem_cons, List.not_mem_nil, or_false] at hkind
    rcases hkind with hkind | hkind <;> simp [hkind, Kind.reserved] at hcase

theorem literate_of_recognise {b : UInt8} {tail : List UInt8} {kind : Kind}
    {literal : Option Literal} {length : Nat}
    (h : recognise b tail = (.token kind literal, length)) : Literate kind literal := by
  have hequals : ∀ long short, long ∉ [Kind.number, .string] → short ∉ [Kind.number, .string] →
      withEquals long short tail = (.token kind literal, length) → Literate kind literal := by
    intro long short hlong hshort heq
    unfold withEquals at heq
    split at heq <;> cases heq
    · exact .none hlong
    · exact .none hshort
  unfold recognise at h
  split at h
  case h_11 | h_12 | h_13 | h_14 => exact hequals _ _ (by decide) (by decide) h
  case h_15 | h_16 | h_17 | h_18 => cases h
  case h_19 =>
    unfold recogniseSlash at h
    split at h <;> cases h
    exact .none (by decide)
  case h_20 =>
    unfold recogniseString at h
    dsimp only at h
    split at h <;> cases h
    exact .text
  case h_21 =>
    split at h
    · cases h
      exact .number
    · split at h <;> cases h
      exact literate_ofWord _
  all_goals
    cases h
    exact .none (by decide)

/-! ## 3. Pieces -/

theorem length_drop_le (count : Nat) (bytes : List UInt8) :
    (bytes.drop count).length ≤ bytes.length := by
  rw [List.length_drop]
  exact Nat.sub_le _ _

theorem piecesWithin_succ (rounds : Nat) (b : UInt8) (tail : List UInt8) :
    piecesWithin (rounds + 1) (b :: tail) =
      ⟨(recognise b tail).1, b :: tail.take (recognise b tail).2⟩ ::
        piecesWithin rounds (tail.drop (recognise b tail).2) := by
  rfl

/-- More rounds than bytes make no difference. -/
theorem piecesWithin_fuel (rounds rounds' : Nat) (bytes : List UInt8)
    (h : bytes.length ≤ rounds) (h' : bytes.length ≤ rounds') :
    piecesWithin rounds bytes = piecesWithin rounds' bytes := by
  induction rounds generalizing rounds' bytes with
  | zero =>
    rw [List.length_eq_zero_iff.mp (Nat.le_zero.mp h), piecesWithin, piecesWithin]
  | succ rounds ih =>
    cases bytes with
    | nil => rw [piecesWithin, piecesWithin]
    | cons b tail =>
      cases rounds' with
      | zero => cases h'
      | succ rounds' =>
        simp only [List.length_cons] at h h'
        have hdrop := length_drop_le (recognise b tail).2 tail
        rw [piecesWithin_succ, piecesWithin_succ, ih rounds' _ (by omega) (by omega)]

/-- The first piece of a source and the pieces after it. -/
theorem pieces_cons (b : UInt8) (tail : List UInt8) :
    pieces (b :: tail) = ⟨(recognise b tail).1, b :: tail.take (recognise b tail).2⟩ ::
      pieces (tail.drop (recognise b tail).2) := by
  have hdrop := length_drop_le (recognise b tail).2 tail
  rw [pieces, List.length_cons, piecesWithin_succ, pieces,
    piecesWithin_fuel tail.length _ _ hdrop (Nat.le_refl _)]

/-- A source in which no string is left open can be cut at the end of a line. -/
theorem pieces_join (source rest : List UInt8)
    (hclosed : ∀ piece ∈ pieces source, piece.lexeme ≠ .unterminated) :
    pieces (source ++ lineFeed :: rest) =
      pieces source ++ ⟨.blank, [lineFeed]⟩ :: pieces rest := by
  match source with
  | [] =>
    rw [List.nil_append, pieces_cons]
    rfl
  | b :: tail =>
    rw [pieces_cons] at hclosed
    have hfirst := recognise_append b tail rest (hclosed _ List.mem_cons_self)
    have hlength := length_recognise b tail
    have hdrop := length_drop_le (recognise b tail).2 tail
    rw [List.cons_append, pieces_cons, pieces_cons b tail, hfirst,
      List.take_append_of_le_length hlength, List.drop_append_of_le_length hlength,
      pieces_join _ rest fun piece hpiece => hclosed piece (List.mem_cons_of_mem _ hpiece),
      List.cons_append]
termination_by source.length

/-- What is true of all lexemes with their bytes is true of all pieces. -/
theorem forall_mem_pieces {P : Piece → Prop}
    (h : ∀ b tail, P ⟨(recognise b tail).1, b :: tail.take (recognise b tail).2⟩)
    (source : List UInt8) : ∀ piece ∈ pieces source, P piece := by
  match source with
  | [] =>
    intro piece hpiece
    cases hpiece
  | b :: tail =>
    have hdrop := length_drop_le (recognise b tail).2 tail
    rw [pieces_cons]
    intro piece hpiece
    rcases List.mem_cons.mp hpiece with rfl | hpiece
    · exact h b tail
    · exact forall_mem_pieces h _ piece hpiece
termination_by source.length

/-! ## 4. Tokens -/

/-- The tokens and faults of pieces, without the end of the input. -/
def itemsWithin (line : Nat) : List Piece → List (Except Fault Token)
  | [] => []
  | piece :: rest =>
    (piece.item? (line + lineFeeds piece.bytes)).toList ++
      itemsWithin (line + lineFeeds piece.bytes) rest

/-- The line after some pieces. -/
def lineAfter (line : Nat) (ps : List Piece) : Nat :=
  ps.foldl (fun line piece => line + lineFeeds piece.bytes) line

theorem itemsFrom_append (line : Nat) (ps rest : List Piece) :
    itemsFrom line (ps ++ rest) = itemsWithin line ps ++ itemsFrom (lineAfter line ps) rest := by
  induction ps generalizing line with
  | nil => rfl
  | cons piece ps ih =>
    rw [List.cons_append, itemsFrom, itemsWithin, ih]
    cases piece.item? (line + lineFeeds piece.bytes) <;> rfl

theorem tokensOf_append (items items' : List (Except Fault Token)) :
    tokensOf (items ++ items') = tokensOf items ++ tokensOf items' :=
  List.filterMap_append

theorem faultsOf_append (items items' : List (Except Fault Token)) :
    faultsOf (items ++ items') = faultsOf items ++ faultsOf items' :=
  List.filterMap_append

/-- The tokens of a source before the end of the input. -/
def wordsOf (source : List UInt8) : List Token :=
  tokensOf (itemsWithin 1 (pieces source))

/-- The line on which a source ends. -/
def lastLine (source : List UInt8) : Nat :=
  lineAfter 1 (pieces source)

theorem scan_eq (source : List UInt8) :
    scan source = itemsWithin 1 (pieces source) ++ [.ok (.endOfInput (lastLine source))] := by
  have happend := itemsFrom_append 1 (pieces source) []
  rw [List.append_nil] at happend
  exact happend

theorem tokensOf_scan (source : List UInt8) :
    tokensOf (scan source) = wordsOf source ++ [.endOfInput (lastLine source)] := by
  rw [scan_eq, tokensOf_append]
  rfl

/-- A fault some lines further down. -/
def Fault.moved (lines : Nat) : Fault → Fault
  | .lexical line cause => .lexical (lines + line) cause
  | .grammar site cause => .grammar { site with line := lines + site.line } cause
  | .binding site cause => .binding { site with line := lines + site.line } cause
  | .runtime line cause => .runtime (lines + line) cause
  | .output message => .output message

/-- A token or a fault some lines further down. -/
def movedItem (lines : Nat) : Except Fault Token → Except Fault Token
  | .ok token => .ok (token.moved lines)
  | .error fault => .error (fault.moved lines)

/-- Pieces some lines further down give the same items there. -/
theorem itemsFrom_moved (lines line : Nat) (ps : List Piece) :
    itemsFrom (lines + line) ps = (itemsFrom line ps).map (movedItem lines) := by
  induction ps generalizing line with
  | nil => rfl
  | cons piece ps ih =>
    rw [itemsFrom, itemsFrom, Nat.add_assoc, ih]
    unfold Piece.item?
    cases piece.lexeme <;> rfl

theorem tokensOf_moved (lines : Nat) (items : List (Except Fault Token)) :
    tokensOf (items.map (movedItem lines)) = (tokensOf items).map (·.moved lines) := by
  rw [tokensOf, tokensOf, List.filterMap_map, List.map_filterMap]
  congr 1
  funext item
  cases item <;> rfl

theorem faultsOf_moved (lines : Nat) (items : List (Except Fault Token)) :
    faultsOf (items.map (movedItem lines)) = (faultsOf items).map (·.moved lines) := by
  rw [faultsOf, faultsOf, List.filterMap_map, List.map_filterMap]
  congr 1
  funext item
  cases item <;> rfl

/-- Every token of pieces is that of a piece. -/
theorem exists_piece_of_mem_itemsWithin {line : Nat} {ps : List Piece} {t : Token}
    (ht : t ∈ tokensOf (itemsWithin line ps)) :
    ∃ piece ∈ ps, piece.lexeme = .token t.kind t.literal ∧
      t.lexeme = Text.Utf8.decodeLossy piece.bytes := by
  induction ps generalizing line with
  | nil => cases ht
  | cons piece ps ih =>
    rw [itemsWithin, tokensOf_append] at ht
    rcases List.mem_append.mp ht with hfirst | hrest
    · unfold Piece.item? at hfirst
      cases hlexeme : piece.lexeme with
      | token kind literal =>
        simp only [hlexeme, tokensOf, Option.toList_some, List.filterMap_cons,
          List.filterMap_nil, List.mem_singleton] at hfirst
        rw [hfirst]
        exact ⟨piece, List.mem_cons_self, hlexeme, rfl⟩
      | blank | unterminated | unexpected => simp [hlexeme, tokensOf] at hfirst
    · obtain ⟨found, hfound, hboth⟩ := ih hrest
      exact ⟨found, List.mem_cons_of_mem _ hfound, hboth⟩

/-- What is true of all kinds and literals that are recognised, with their bytes, is true of the
tokens of a source. -/
theorem forall_mem_wordsOf {P : Kind → Option Literal → String → Prop}
    (h : ∀ b tail kind literal, (recognise b tail).1 = .token kind literal →
      P kind literal (Text.Utf8.decodeLossy (b :: tail.take (recognise b tail).2)))
    {source : List UInt8} {t : Token} (ht : t ∈ wordsOf source) : P t.kind t.literal t.lexeme := by
  obtain ⟨piece, hpiece, hlexeme, htext⟩ := exists_piece_of_mem_itemsWithin ht
  rw [htext]
  exact forall_mem_pieces (P := fun piece => ∀ kind literal, piece.lexeme = .token kind literal →
    P kind literal (Text.Utf8.decodeLossy piece.bytes)) h source piece hpiece _ _ hlexeme

/-- Every token of a source is a mark or a word of its kind. -/
theorem ofWord_of_mem_wordsOf {source : List UInt8} {t : Token}
    (ht : t ∈ wordsOf source) :
    t.kind ∈ marks ∨ t.kind = .ofWord t.lexeme :=
  forall_mem_wordsOf (P := fun kind _ text => kind ∈ marks ∨ kind = .ofWord text)
    (fun _ _ _ _ hlexeme => kind_of_recognise (Prod.ext hlexeme rfl)) ht

/-- A token of a source that is the word `this` is spelled so, and no name is. -/
theorem spelled_of_mem_scan {source : List UInt8} {t : Token} (ht : t ∈ tokensOf (scan source)) :
    Spelled t := by
  rw [tokensOf_scan] at ht
  rcases List.mem_append.mp ht with hword | hend
  · exact spelled_of_ofWord (ofWord_of_mem_wordsOf hword)
  · rw [List.mem_singleton.mp hend]
    exact ⟨nofun, nofun⟩

/-- A token of a source has a value exactly if it is a literal. -/
theorem literate_of_mem_scan {source : List UInt8} {t : Token} (ht : t ∈ tokensOf (scan source)) :
    Literate t.kind t.literal := by
  rw [tokensOf_scan] at ht
  rcases List.mem_append.mp ht with hword | hend
  · exact forall_mem_wordsOf (P := fun kind literal _ => Literate kind literal)
      (fun _ _ _ _ hlexeme => literate_of_recognise (Prod.ext hlexeme rfl)) hword
  · rw [List.mem_singleton.mp hend]
    exact .none (by simp [Token.endOfInput])

/-- A string that is left open is a fault. -/
theorem unterminated_mem_itemsFrom (line : Nat) {ps : List Piece} {piece : Piece}
    (hmem : piece ∈ ps) (hopen : piece.lexeme = .unterminated) :
    ∃ line', .error (.lexical line' .unterminatedString) ∈ itemsFrom line ps := by
  induction ps generalizing line with
  | nil => cases hmem
  | cons first ps ih =>
    rw [itemsFrom]
    rcases List.mem_cons.mp hmem with rfl | hmem
    · unfold Piece.item?
      rw [hopen]
      exact ⟨_, List.mem_cons_self⟩
    · obtain ⟨line', hitem⟩ := ih (line + lineFeeds first.bytes) hmem
      refine ⟨line', ?_⟩
      cases first.item? (line + lineFeeds first.bytes) with
      | none => exact hitem
      | some item => exact List.mem_cons_of_mem _ hitem

/-- Two sources with a line feed between them have the items of the two, those of the second
further down, if the first one leaves no string open. -/
theorem scan_join_items {a : List UInt8} (b : List UInt8)
    (ha : ∀ line, .error (.lexical line .unterminatedString) ∉ scan a) :
    scan (a ++ lineFeed :: b) =
      itemsWithin 1 (pieces a) ++ (scan b).map (movedItem (lastLine a)) := by
  have hclosed : ∀ piece ∈ pieces a, piece.lexeme ≠ .unterminated := by
    intro piece hmem hopen
    obtain ⟨line, hitem⟩ := unterminated_mem_itemsFrom 1 hmem hopen
    exact ha line hitem
  have hblank : itemsFrom (lastLine a) (⟨.blank, [lineFeed]⟩ :: pieces b) =
      itemsFrom (lastLine a + 1) (pieces b) := rfl
  have hsecond : itemsFrom (lastLine a + 1) (pieces b) = (scan b).map (movedItem (lastLine a)) :=
    itemsFrom_moved (lastLine a) 1 (pieces b)
  have happend := itemsFrom_append 1 (pieces a) (⟨.blank, [lineFeed]⟩ :: pieces b)
  rw [scan, pieces_join a b hclosed, happend]
  exact congrArg (itemsWithin 1 (pieces a) ++ ·) (hblank.trans hsecond)

/-- Two sources with a line feed between them have the tokens of the two, those of the second
further down. -/
theorem scan_join (a b : List UInt8) (ha : faultsOf (scan a) = []) :
    tokensOf (scan (a ++ lineFeed :: b)) =
        wordsOf a ++ (tokensOf (scan b)).map (·.moved (lastLine a)) ∧
      (faultsOf (scan b) = [] → faultsOf (scan (a ++ lineFeed :: b)) = []) := by
  have hnone : ∀ fault, .error fault ∉ scan a := by
    intro fault hmem
    have hfault : fault ∈ faultsOf (scan a) := List.mem_filterMap.mpr ⟨_, hmem, rfl⟩
    rw [ha] at hfault
    cases hfault
  rw [scan_eq, faultsOf_append, List.append_eq_nil_iff] at ha
  rw [scan_join_items b fun line => hnone _]
  constructor
  · rw [tokensOf_append, tokensOf_moved]
    rfl
  · intro hb
    rw [faultsOf_append, ha.1, faultsOf_moved, hb]
    rfl

end ScriptLang
