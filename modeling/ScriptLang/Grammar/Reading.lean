/-
ScriptLang.Grammar.Reading — reading sentences from a list of tokens.

A reading works through the tokens before the end of the input. It keeps the
tokens that are still ahead, the faults recorded so far and the next unused
expression identity. A reading that fails keeps this state: recovery goes on
from where the fault was met.

Two devices bound the work of a reading without hiding anything.

* `iterate` repeats a step until it has an answer. It has one round for each
  token ahead and one more, which is enough for every step that uses up a
  token whenever it asks for another round.
* The rules of the grammar refer to themselves through an argument, and the
  knot is tied by going along a list of tokens, one for each sentence inside
  another (`Grammar.Expression`, `Grammar.Statement`).

In both the list of the tokens ahead is itself the count, and both end in the
fault `tooDeep` when the list is used up.
-/
import ScriptLang.Fault
import ScriptLang.Tree

namespace ScriptLang.Grammar

/-! ## 1. States and readings -/

/-- What a reading keeps. -/
structure State where
  /-- The tokens still to be read; none of them ends the input. -/
  ahead : List Token
  /-- The token that ends the input. -/
  stop : Token
  /-- The faults recorded so far, in order. -/
  faults : List Fault
  /-- The next unused identity. -/
  nextId : Nat
  deriving DecidableEq, Repr

/-- A reading gives a result or fails, and has a state either way. -/
abbrev Reading := EStateM Fault State

/-! ## 2. Looking and taking -/

/-- The next token, or the one that ends the input. -/
def peek : Reading Token := do
  let s ← get
  pure (s.ahead.headD s.stop)

/-- Whether the next token is of a kind. Nothing is, at the end. -/
def next? (kind : Kind) : Reading Bool := do
  let s ← get
  pure (s.ahead.head?.any (·.kind = kind))

/-- Whether no token is left. -/
def atEnd : Reading Bool := do
  let s ← get
  pure s.ahead.isEmpty

/-- Takes the next token if its kind is one of `kinds`. -/
def accept? (kinds : List Kind) : Reading (Option Token) := fun s =>
  match s.ahead with
  | [] => .ok none s
  | t :: rest => if t.kind ∈ kinds then .ok (some t) { s with ahead := rest } else .ok none s

/-- Takes the next token if it is of a kind, and says whether it was. -/
def skip? (kind : Kind) : Reading Bool := do
  pure (← accept? [kind]).isSome

/-- Fails at the next token. -/
def fail {α : Type} (cause : GrammarCause) : Reading α := do
  throw (.grammar (← peek).site cause)

/-- Takes the next token, which must be of a kind. -/
def require (kind : Kind) (wanted : Wanted) : Reading Token := do
  match ← accept? [kind] with
  | some token => pure token
  | none => fail (.expected wanted)

/-- Records a fault and goes on. -/
def record (token : Token) (cause : GrammarCause) : Reading Unit :=
  modify fun s => { s with faults := s.faults ++ [.grammar token.site cause] }

/-- An unused identity. -/
def fresh : Reading Nat :=
  modifyGet fun s => (s.nextId, { s with nextId := s.nextId + 1 })

/-! ## 3. Repetition -/

/-- Repeats a step until it gives an answer, once for each of the given tokens and one last
time. -/
def iterateAlong {α β : Type} (step : α → Reading (α ⊕ β)) : List Token → α → Reading β
  | [], a => do
    match ← step a with
    | .inl _ => fail .tooDeep
    | .inr b => pure b
  | _ :: rest, a => do
    match ← step a with
    | .inl a => iterateAlong step rest a
    | .inr b => pure b

/-- Repeats a step until it gives an answer. -/
def iterate {α β : Type} (a : α) (step : α → Reading (α ⊕ β)) : Reading β := do
  iterateAlong step (← get).ahead a

/-- One or more items with commas between them. Each item past the largest allowed number is
recorded as a fault, and is read all the same. -/
def commaSeparated {α : Type} (list : BoundedList) (item : Reading α) : Reading (List α) :=
  iterate [] fun items => do
    if maxArity ≤ items.length then record (← peek) (.tooMany list)
    let items := items ++ [← item]
    if ← skip? .comma then pure (.inl items) else pure (.inr items)

/-! ## 4. Recovery -/

/-- The words that begin a statement or declaration. -/
def startsStatement (kind : Kind) : Bool :=
  kind ∈ [.classWord, .funWord, .varWord, .forWord, .ifWord, .whileWord, .printWord, .returnWord]

/-- Skips to where a new sentence may begin: at least one token, then up to and including the
first semicolon or up to a word that begins a statement. -/
def resume : List Token → List Token
  | [] => []
  | t :: rest =>
    if t.kind = .semicolon || rest.head?.any (startsStatement ·.kind) then rest else resume rest

/-- Reads a sentence. A fault is recorded, and the tokens up to the next sentence are
skipped. -/
def recovering {α : Type} (sentence : Reading α) : Reading (Option α) := fun s =>
  match sentence s with
  | .ok a s => .ok (some a) s
  | .error fault s =>
    .ok none { s with faults := s.faults ++ [fault], ahead := resume s.ahead }

end ScriptLang.Grammar
