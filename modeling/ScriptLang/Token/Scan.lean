/-
ScriptLang.Token.Scan — a source text cut into tokens.

The source is a list of bytes, and scanning happens in two layers.

* `recognise` looks at one byte and what follows it and says what begins
  there and how many of the following bytes belong to it. It is the lexical
  grammar: punctuation, one- and two-character operators, blanks, comments,
  strings, numerals, words, and bytes that begin nothing.
* `pieces` applies it again and again. A piece is a lexeme with exactly the
  bytes it was read from, so the pieces of a source tile it: each has at least
  one byte, and their bytes in order are the source.

`scan` then walks the pieces once, counting line feeds. A token or fault is on
the line on which its piece ends, blanks and comments give nothing, and the
end of the input closes the list.

The recursion of `pieces` is on a count of rounds. Each round uses up at
least one byte, so the length of the source is enough rounds.
-/
import ScriptLang.Decimal.Numeral
import ScriptLang.Fault
import ScriptLang.Text.Utf8

namespace ScriptLang

open Decimal (isDigit numeral)

/-! ## 1. Classes of bytes -/

/-- The byte of an ASCII character. -/
def ascii (c : Char) : UInt8 :=
  c.val.toUInt8

/-- The bytes of an ASCII text. -/
def spelling (text : String) : List UInt8 :=
  text.toList.map ascii

/-- Letters and the underscore begin a word. -/
def isWordStart (b : UInt8) : Bool :=
  (ascii 'a' ≤ b && b ≤ ascii 'z') || (ascii 'A' ≤ b && b ≤ ascii 'Z') || b == ascii '_'

/-- A word goes on with letters, digits and underscores. -/
def isWordPart (b : UInt8) : Bool :=
  isWordStart b || isDigit b

/-- The bytes that continue a character in UTF-8. -/
def isContinuation (b : UInt8) : Bool :=
  0x80 ≤ b && b < 0xC0

/-- The line feed, which ends a line. -/
def lineFeed : UInt8 := ascii '\n'

/-- The number of lines that some bytes end. -/
def lineFeeds (bytes : List UInt8) : Nat :=
  bytes.count lineFeed

/-! ## 2. What begins at a byte -/

/-- What a piece of source is. -/
inductive Lexeme where
  /-- White space or a comment, which separates tokens and is otherwise ignored. -/
  | blank
  | token (kind : Kind) (literal : Option Literal)
  | unterminated
  | unexpected
  deriving DecidableEq, Repr

/-- An operator that an equals sign makes into another one. -/
def withEquals (long short : Kind) (tail : List UInt8) : Lexeme × Nat :=
  if tail.head? = some (ascii '=') then (.token long none, 1) else (.token short none, 0)

/-- After an opening quote: everything up to the next quote, line feeds included. -/
def recogniseString (tail : List UInt8) : Lexeme × Nat :=
  let body := tail.takeWhile (· != ascii '"')
  match tail.drop body.length with
  | [] => (.unterminated, body.length)
  | _ :: _ => (.token .string (some (.text (Text.Utf8.decodeLossy body))), body.length + 1)

/-- After a first digit: more digits, and a point only if a digit follows it. -/
def recogniseNumber (digit : UInt8) (tail : List UInt8) : Lexeme × Nat :=
  let integral := tail.takeWhile isDigit
  let fraction := match tail.drop integral.length with
    | point :: rest => if point == ascii '.' then rest.takeWhile isDigit else []
    | [] => []
  let value := numeral (digit :: integral) fraction
  let length := if fraction.isEmpty then integral.length
    else integral.length + 1 + fraction.length
  (.token .number (some (.number value)), length)

/-- After the first byte of a word: its longest continuation. -/
def recogniseWord (first : UInt8) (tail : List UInt8) : Lexeme × Nat :=
  let rest := tail.takeWhile isWordPart
  (.token (.ofWord (Text.Utf8.decodeLossy (first :: rest))) none, rest.length)

/-- After a slash: a comment up to the end of the line, or the operator. -/
def recogniseSlash (tail : List UInt8) : Lexeme × Nat :=
  if tail.head? = some (ascii '/') then (.blank, (tail.takeWhile (· != lineFeed)).length)
  else (.token .slash none, 0)

/-- A byte that begins nothing takes the continuation bytes after it along, so that one
foreign character is one fault. -/
def recogniseForeign (tail : List UInt8) : Lexeme × Nat :=
  (.unexpected, (tail.takeWhile isContinuation).length)

/-- The lexeme that begins with a byte, and how many of the bytes after it belong to it. -/
def recognise (b : UInt8) (tail : List UInt8) : Lexeme × Nat :=
  match Char.ofUInt8 b with
  | '(' => (.token .leftParen none, 0)
  | ')' => (.token .rightParen none, 0)
  | '\x7b' => (.token .leftBrace none, 0)
  | '\x7d' => (.token .rightBrace none, 0)
  | ',' => (.token .comma none, 0)
  | '.' => (.token .dot none, 0)
  | '-' => (.token .minus none, 0)
  | '+' => (.token .plus none, 0)
  | ';' => (.token .semicolon none, 0)
  | '*' => (.token .star none, 0)
  | '!' => withEquals .bangEqual .bang tail
  | '=' => withEquals .equalEqual .equal tail
  | '<' => withEquals .lessEqual .less tail
  | '>' => withEquals .greaterEqual .greater tail
  | ' ' => (.blank, 0)
  | '\r' => (.blank, 0)
  | '\t' => (.blank, 0)
  | '\n' => (.blank, 0)
  | '/' => recogniseSlash tail
  | '"' => recogniseString tail
  | _ =>
    if isDigit b then recogniseNumber b tail
    else if isWordStart b then recogniseWord b tail
    else recogniseForeign tail

/-! ## 3. Pieces -/

/-- A lexeme and the bytes it was read from. -/
structure Piece where
  lexeme : Lexeme
  bytes : List UInt8
  deriving DecidableEq, Repr

/-- The pieces of a source, at most `rounds` of them. -/
def piecesWithin : Nat → List UInt8 → List Piece
  | _, [] => []
  | 0, _ :: _ => []
  | rounds + 1, b :: tail =>
    let (lexeme, length) := recognise b tail
    ⟨lexeme, b :: tail.take length⟩ :: piecesWithin rounds (tail.drop length)

/-- The pieces of a source. -/
def pieces (source : List UInt8) : List Piece :=
  piecesWithin source.length source

/-! ## 4. Tokens and faults -/

/-- What a piece that ends on `line` contributes. -/
def Piece.item? (line : Nat) (piece : Piece) : Option (Except Fault Token) :=
  let text := Text.Utf8.decodeLossy piece.bytes
  match piece.lexeme with
  | .blank => none
  | .token kind literal => some (.ok ⟨kind, text, literal, line⟩)
  | .unterminated => some (.error (.lexical line .unterminatedString))
  | .unexpected => some (.error (.lexical line (.unexpectedCharacter text)))

/-- The items of some pieces, when `line` is the line before them. -/
def itemsFrom (line : Nat) : List Piece → List (Except Fault Token)
  | [] => [.ok (.endOfInput line)]
  | piece :: rest =>
    let line := line + lineFeeds piece.bytes
    match piece.item? line with
    | some item => item :: itemsFrom line rest
    | none => itemsFrom line rest

/-- Tokens and lexical faults of a source, in order, closed by the end of the input. -/
def scan (source : List UInt8) : List (Except Fault Token) :=
  itemsFrom 1 (pieces source)

/-- The tokens among some items. -/
def tokensOf (items : List (Except Fault Token)) : List Token :=
  items.filterMap fun
    | .ok token => some token
    | .error _ => none

/-- The faults among some items. -/
def faultsOf (items : List (Except Fault Token)) : List Fault :=
  items.filterMap fun
    | .ok _ => none
    | .error fault => some fault

end ScriptLang
