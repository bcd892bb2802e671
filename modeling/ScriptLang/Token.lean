/-
ScriptLang.Token — the words of the language.

A token is a kind, the stretch of source it was cut from, the value of a
string or number literal, and the line on which it ends. Kinds carry no data.
The end of the input is a token too, so that a complaint about a missing word
at the end has something to point at.
-/

namespace ScriptLang

/-! ## 1. Kinds -/

/-- What a token is. The sixteen reserved words end in `Word`. -/
inductive Kind where
  | leftParen | rightParen | leftBrace | rightBrace
  | comma | dot | minus | plus | semicolon | slash | star
  | bang | bangEqual | equal | equalEqual
  | greater | greaterEqual | less | lessEqual
  | identifier | string | number
  | andWord | classWord | elseWord | falseWord | funWord | forWord | ifWord | nilWord
  | orWord | printWord | returnWord | superWord | thisWord | trueWord | varWord | whileWord
  | endOfInput
  deriving DecidableEq, Repr

/-- The name of a kind in listings. -/
def Kind.name : Kind → String
  | .leftParen => "LEFT_PAREN"
  | .rightParen => "RIGHT_PAREN"
  | .leftBrace => "LEFT_BRACE"
  | .rightBrace => "RIGHT_BRACE"
  | .comma => "COMMA"
  | .dot => "DOT"
  | .minus => "MINUS"
  | .plus => "PLUS"
  | .semicolon => "SEMICOLON"
  | .slash => "SLASH"
  | .star => "STAR"
  | .bang => "BANG"
  | .bangEqual => "BANG_EQUAL"
  | .equal => "EQUAL"
  | .equalEqual => "EQUAL_EQUAL"
  | .greater => "GREATER"
  | .greaterEqual => "GREATER_EQUAL"
  | .less => "LESS"
  | .lessEqual => "LESS_EQUAL"
  | .identifier => "IDENTIFIER"
  | .string => "STRING"
  | .number => "NUMBER"
  | .andWord => "AND"
  | .classWord => "CLASS"
  | .elseWord => "ELSE"
  | .falseWord => "FALSE"
  | .funWord => "FUN"
  | .forWord => "FOR"
  | .ifWord => "IF"
  | .nilWord => "NIL"
  | .orWord => "OR"
  | .printWord => "PRINT"
  | .returnWord => "RETURN"
  | .superWord => "SUPER"
  | .thisWord => "THIS"
  | .trueWord => "TRUE"
  | .varWord => "VAR"
  | .whileWord => "WHILE"
  | .endOfInput => "EOF"

/-- The reserved words. -/
def Kind.reserved : List (String × Kind) :=
  [("and", .andWord), ("class", .classWord), ("else", .elseWord), ("false", .falseWord),
   ("fun", .funWord), ("for", .forWord), ("if", .ifWord), ("nil", .nilWord),
   ("or", .orWord), ("print", .printWord), ("return", .returnWord), ("super", .superWord),
   ("this", .thisWord), ("true", .trueWord), ("var", .varWord), ("while", .whileWord)]

/-- The kind of a word: its own if it is reserved, otherwise an identifier. -/
def Kind.ofWord (word : String) : Kind :=
  (Kind.reserved.lookup word).getD .identifier

/-! ## 2. Tokens -/

/-- The value of a string or number literal. -/
inductive Literal where
  | number (value : Float)
  | text (value : String)
  deriving DecidableEq, Repr

/-- One word of a source text. -/
structure Token where
  kind : Kind
  /-- The stretch of source the token was cut from. -/
  lexeme : String
  literal : Option Literal
  /-- The line on which the token ends, counted from one. -/
  line : Nat
  deriving DecidableEq, Repr

/-- The token that stands after the last word. -/
def Token.endOfInput (line : Nat) : Token :=
  ⟨.endOfInput, "", none, line⟩

end ScriptLang
