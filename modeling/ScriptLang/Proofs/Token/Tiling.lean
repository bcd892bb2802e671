/-
ScriptLang.Proofs.Token.Tiling — scanning covers the source.

Every piece of a source stands between two offsets (`Extent`). The extents
tile the source: none is empty, each starts where the one before it stops, the
first at zero, and the last stops at the end (`tiles_extents`). The bytes of a
piece are those between its offsets, and it is what begins there.

Lines are counted piece by piece, so the line of a piece is the line on which
its extent stops (`itemsWithin_extents`). `scan_tiles` puts the two together
and adds what ends the list: one end of the input, on the last line, and
nothing after it.

Nothing but the count of lines crosses a line feed, unless a string does
(`scan_append_lineFeed`).
-/
import ScriptLang.Proofs.Token.Pieces

namespace ScriptLang

/-! ## 1. Extents -/

/-- A piece, and the offsets of the source between which it stands. -/
structure Extent where
  piece : Piece
  start : Nat
  stop : Nat
  deriving DecidableEq, Repr

/-- The extents of pieces that begin at an offset. -/
def extentsFrom (offset : Nat) : List Piece → List Extent
  | [] => []
  | piece :: rest =>
    ⟨piece, offset, offset + piece.bytes.length⟩ :: extentsFrom (offset + piece.bytes.length) rest

/-- The extents of the pieces of a source. -/
def extents (source : List UInt8) : List Extent :=
  extentsFrom 0 (pieces source)

/-- A piece is what begins at its first offset: one step of the scanner leads from there to its
last offset. -/
def Extent.Recognised (source : List UInt8) (x : Extent) : Prop :=
  ∃ b tail, source.drop x.start = b :: tail ∧
    recognise b tail = (x.piece.lexeme, x.stop - (x.start + 1))

/-- Extents cover the bytes of a source from one offset to another, without gap or overlap. -/
def Tiles (source : List UInt8) : Nat → List Extent → Nat → Prop
  | low, [], high => low = high
  | low, x :: rest, high =>
    x.start = low ∧ x.start < x.stop ∧ x.piece.bytes = source.extract x.start x.stop ∧
      x.Recognised source ∧ Tiles source x.stop rest high

/-- What stands in a source after `before` is tiled by the pieces that are found there. -/
theorem tiles_extentsFrom (before rest : List UInt8) :
    Tiles (before ++ rest) before.length (extentsFrom before.length (pieces rest))
      (before ++ rest).length := by
  match rest with
  | [] => simp [pieces, piecesWithin, extentsFrom, Tiles]
  | b :: tail =>
    have hlength := length_recognise b tail
    have hdrop := length_drop_le (recognise b tail).2 tail
    -- The first piece is moved over to what stands before.
    have hmoved : before ++ b :: tail =
        (before ++ b :: tail.take (recognise b tail).2) ++ tail.drop (recognise b tail).2 := by
      simp
    have hstop : before.length + (b :: tail.take (recognise b tail).2).length =
        (before ++ b :: tail.take (recognise b tail).2).length := by
      simp
    have htiles := tiles_extentsFrom (before ++ b :: tail.take (recognise b tail).2)
      (tail.drop (recognise b tail).2)
    rw [← hmoved, ← hstop] at htiles
    have hwidth : before.length + (b :: tail.take (recognise b tail).2).length -
        (before.length + 1) = (recognise b tail).2 := by
      rw [List.length_cons, List.length_take, Nat.min_eq_left hlength]
      omega
    rw [pieces_cons, extentsFrom]
    refine ⟨rfl, by simp, ?_, ⟨b, tail, by simp, ?_⟩, htiles⟩
    · simp [List.extract]
    · rw [hwidth]
termination_by rest.length

/-- The extents of a source tile it. -/
theorem tiles_extents (source : List UInt8) :
    Tiles source 0 (extents source) source.length :=
  tiles_extentsFrom [] source

/-! ## 2. Lines -/

/-- The pieces of a source hold all its bytes. -/
theorem flatMap_pieces (source : List UInt8) : (pieces source).flatMap Piece.bytes = source := by
  match source with
  | [] => rfl
  | b :: tail =>
    have hdrop := length_drop_le (recognise b tail).2 tail
    rw [pieces_cons, List.flatMap_cons, flatMap_pieces]
    simp
termination_by source.length

theorem lineFeeds_append (bytes bytes' : List UInt8) :
    lineFeeds (bytes ++ bytes') = lineFeeds bytes + lineFeeds bytes' :=
  List.count_append

/-- What a piece contributes, on the line on which its extent stops. -/
def Extent.item? (source : List UInt8) (x : Extent) : Option (Except Fault Token) :=
  x.piece.item? (1 + lineFeeds (source.take x.stop))

/-- Counting lines piece by piece is counting the line feeds up to where a piece stops. -/
theorem itemsWithin_extentsFrom (before : List UInt8) (ps : List Piece) :
    itemsWithin (1 + lineFeeds before) ps =
      (extentsFrom before.length ps).filterMap
        (Extent.item? (before ++ ps.flatMap Piece.bytes)) := by
  induction ps generalizing before with
  | nil => rfl
  | cons piece ps ih =>
    have hstop : before.length + piece.bytes.length = (before ++ piece.bytes).length := by simp
    have hline : 1 + lineFeeds before + lineFeeds piece.bytes =
        1 + lineFeeds (before ++ piece.bytes) := by
      rw [lineFeeds_append, Nat.add_assoc]
    have htake : (before ++ piece.bytes ++ ps.flatMap Piece.bytes).take
        (before ++ piece.bytes).length = before ++ piece.bytes := List.take_left
    rw [itemsWithin, hline, ih, extentsFrom, hstop, List.flatMap_cons, ← List.append_assoc,
      List.filterMap_cons, Extent.item?, htake]
    cases piece.item? (1 + lineFeeds (before ++ piece.bytes)) <;> rfl

theorem itemsWithin_extents (source : List UInt8) :
    itemsWithin 1 (pieces source) = (extents source).filterMap (Extent.item? source) := by
  have hitems := itemsWithin_extentsFrom [] (pieces source)
  rwa [flatMap_pieces] at hitems

theorem lineAfter_eq (line : Nat) (ps : List Piece) :
    lineAfter line ps = line + lineFeeds (ps.flatMap Piece.bytes) := by
  unfold lineAfter
  induction ps generalizing line with
  | nil => rfl
  | cons piece ps ih =>
    rw [List.foldl_cons, ih, List.flatMap_cons, lineFeeds_append, Nat.add_assoc]

/-- A source ends on the line after as many lines as it has line feeds. -/
theorem lastLine_eq (source : List UInt8) : lastLine source = 1 + lineFeeds source := by
  rw [lastLine, lineAfter_eq, flatMap_pieces]

/-- The line of a token or a lexical fault. -/
def lineOf? : Except Fault Token → Option Nat
  | .ok token => some token.line
  | .error fault => fault.line?

theorem Piece.lineOf?_item? {line : Nat} {piece : Piece} {item : Except Fault Token}
    (h : piece.item? line = some item) : lineOf? item = some line := by
  unfold Piece.item? at h
  cases hlexeme : piece.lexeme <;> simp only [hlexeme] at h <;> cases h <;> rfl

/-! ## 3. The whole list -/

/-- No piece is the end of the input. -/
theorem ne_endOfInput_of_mem_extents {source : List UInt8} {x : Extent} (hx : x ∈ extents source)
    {token : Token} (hitem : x.item? source = some (.ok token)) : token.kind ≠ .endOfInput := by
  have hword : token ∈ wordsOf source := by
    rw [wordsOf, itemsWithin_extents, tokensOf, List.mem_filterMap]
    exact ⟨.ok token, List.mem_filterMap.mpr ⟨x, hx, hitem⟩, rfl⟩
  exact ne_endOfInput_of_ofWord (ofWord_of_mem_wordsOf hword)

/-- The extents of the pieces tile the source. Each token and each fault is that of an extent, in
order, on the line on which the extent stops; none of these tokens is the end of the input. It
follows them once, on the line on which the source stops, and nothing comes after it. -/
theorem scan_tiles (source : List UInt8) :
    Tiles source 0 (extents source) source.length ∧
      scan source = (extents source).filterMap (Extent.item? source) ++
        [.ok (.endOfInput (1 + lineFeeds source))] ∧
      ∀ x ∈ extents source, ∀ item, x.item? source = some item →
        lineOf? item = some (1 + lineFeeds (source.take x.stop)) ∧
        ∀ token, item = .ok token → token.kind ≠ .endOfInput := by
  refine ⟨tiles_extents source, ?_, ?_⟩
  · rw [scan_eq, itemsWithin_extents, lastLine_eq]
  · intro x hx item hitem
    refine ⟨Piece.lineOf?_item? hitem, ?_⟩
    rintro token rfl
    exact ne_endOfInput_of_mem_extents hx hitem

/-- A comment, a string over two lines and a byte that begins nothing: the extents of
`//\n"\n"\x00;`. -/
example : (extents [47, 47, 10, 34, 10, 34, 0, 59]).map (fun x => (x.start, x.stop)) =
    [(0, 2), (2, 3), (3, 6), (6, 7), (7, 8)] := by decide

/-! ## 4. Two sources -/

/-- Two sources with a line feed between them are scanned one after the other, if the first one
leaves no string open: its items but for the end of the input, faults included, and those of the
second one, further down by the line feeds of the first one and one more. -/
theorem scan_append_lineFeed (a b : List UInt8)
    (h : ∀ line, .error (.lexical line .unterminatedString) ∉ scan a) :
    scan a = (scan a).dropLast ++ [.ok (.endOfInput (1 + lineFeeds a))] ∧
      scan (a ++ lineFeed :: b) =
        (scan a).dropLast ++ (scan b).map (movedItem (1 + lineFeeds a)) := by
  have hlast : (scan a).dropLast = itemsWithin 1 (pieces a) := by
    rw [scan_eq, List.dropLast_concat]
  rw [hlast, ← lastLine_eq]
  exact ⟨scan_eq a, scan_join_items b h⟩

/-- A character whose bytes stand on two lines is two faults. The first source has a string over two
lines, the second one leaves a string open. -/
theorem scan_append_lineFeed_parted :
    let a : List UInt8 := [34, 10, 34, 0xE2]
    let b : List UInt8 := [0x82, 34]
    (∀ line, .error (.lexical line .unterminatedString) ∉ scan a) ∧
      scan (a ++ lineFeed :: b) =
        [.ok ⟨.string, "\"\n\"", some (.text "\n"), 2⟩,
          .error (.lexical 2 (.unexpectedCharacter "\uFFFD")),
          .error (.lexical 3 (.unexpectedCharacter "\uFFFD")),
          .error (.lexical 3 .unterminatedString), .ok (.endOfInput 3)] := by
  intro a b
  have ha : scan a = [.ok ⟨.string, "\"\n\"", some (.text "\n"), 2⟩,
      .error (.lexical 2 (.unexpectedCharacter "\uFFFD")), .ok (.endOfInput 2)] := by rfl
  have hb : scan b = [.error (.lexical 1 (.unexpectedCharacter "\uFFFD")),
      .error (.lexical 1 .unterminatedString), .ok (.endOfInput 1)] := by rfl
  have hclosed : ∀ line, .error (.lexical line .unterminatedString) ∉ scan a := by
    intro line
    rw [ha]
    simp
  refine ⟨hclosed, ?_⟩
  rw [(scan_append_lineFeed a b hclosed).2, ha, hb]
  rfl

end ScriptLang
