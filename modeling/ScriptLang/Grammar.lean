/-
ScriptLang.Grammar — the statements of a list of tokens.

Only the tokens before the first end of input count. A list without an end of
input is closed with one on the line of its last token.
-/
import ScriptLang.Grammar.Statement

namespace ScriptLang

/-- What reading a list of tokens gives: the statements without faults, the faults in the order
in which they were met, and the next unused identity. -/
structure Parsed where
  statements : List Stmt
  faults : List Fault
  nextId : Nat

namespace Grammar

/-- The token that ends the input of a list of tokens. -/
def stopOf (tokens : List Token) : Token :=
  (tokens.find? (·.kind = .endOfInput)).getD
    (.endOfInput ((tokens.getLast?.map Token.line).getD 1))

/-- The state before the first token is read, when `nextId` is the next unused identity. -/
def State.start (tokens : List Token) (nextId : Nat) : State where
  ahead := tokens.takeWhile (·.kind ≠ .endOfInput)
  stop := stopOf tokens
  faults := []
  nextId := nextId

/-- The statements of a list of tokens; their expressions get identities from `nextId` on. -/
def parse (tokens : List Token) (nextId : Nat) : Parsed :=
  match script (.start tokens nextId) with
  | .ok statements s => ⟨statements, s.faults, s.nextId⟩
  | .error fault s => ⟨[], s.faults ++ [fault], s.nextId⟩

end Grammar

end ScriptLang
