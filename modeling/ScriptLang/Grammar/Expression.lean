/-
ScriptLang.Grammar.Expression — reading expressions.

    expression → ( call "." )? IDENT "=" expression | binary
    binary     → operands joined by the operators of the six levels below
    unary      → ( "!" | "-" ) unary | call
    call       → primary ( "(" arguments? ")" | "." IDENT )*
    primary    → NUMBER | STRING | "true" | "false" | "nil" | "this" | IDENT
               | "(" expression ")"

The six levels, loosest first, are `or`, `and`, equality, comparison, sums
and products. Each joins its operands from the left, and its operands are the
sentences of the next tighter level, so `binaryFrom` is one recursion along
the list of levels.

An assignment is read as its target first, as if it were an ordinary
expression, and checked when the equals sign has been seen. A target that
cannot be assigned to is recorded as a fault; the target itself then stands
for the whole.
-/
import ScriptLang.Grammar.Reading

namespace ScriptLang.Grammar

/-! ## 1. Levels of binary operators -/

/-- Operators that bind equally tightly, and the tree they build. -/
structure Level where
  operators : List Kind
  build : Nat → Expr → Token → Expr → Expr

/-- The levels, loosest first. -/
def levels : List Level :=
  [⟨[.orWord], .logical⟩,
   ⟨[.andWord], .logical⟩,
   ⟨[.bangEqual, .equalEqual], .binary⟩,
   ⟨[.greater, .greaterEqual, .less, .lessEqual], .binary⟩,
   ⟨[.minus, .plus], .binary⟩,
   ⟨[.star, .slash], .binary⟩]

/-- Operands joined from the left by the operators of one level. -/
def leftJoined (level : Level) (operand : Reading Expr) : Reading Expr := do
  iterate (← operand) fun left => do
    match ← accept? level.operators with
    | none => pure (.inr left)
    | some operator =>
      let right ← operand
      pure (.inl (level.build (← fresh) left operator right))

/-- Operands joined by the operators of all given levels. -/
def binaryFrom (operand : Reading Expr) : List Level → Reading Expr
  | [] => operand
  | level :: tighter => leftJoined level (binaryFrom operand tighter)

/-! ## 2. Rules that refer to the whole grammar

In each rule, `self` reads an expression. -/

/-- Words, literals and parenthesised expressions. -/
def primaryWith (self : Reading Expr) : Reading Expr := do
  match ← accept? [.falseWord, .trueWord, .nilWord, .number, .string, .thisWord, .identifier,
      .leftParen] with
  | none => fail (.expected .expression)
  | some token =>
    match token.kind with
    | .falseWord => pure (.literal (← fresh) (.bool false))
    | .trueWord => pure (.literal (← fresh) (.bool true))
    | .nilWord => pure (.literal (← fresh) .nil)
    | .thisWord => pure (.self (← fresh) token)
    | .identifier => pure (.read (← fresh) token)
    | .leftParen =>
      let inner ← self
      let _ ← require .rightParen .groupEnd
      pure (.group (← fresh) inner)
    | _ => pure (.literal (← fresh) (.ofLiteral token.literal))

/-- The arguments of a call and its closing parenthesis, after the opening one. -/
def finishCallWith (self : Reading Expr) (callee : Expr) : Reading Expr := do
  let arguments ← if ← next? .rightParen then pure [] else commaSeparated .arguments self
  let paren ← require .rightParen .argumentsEnd
  pure (.call (← fresh) callee paren arguments)

/-- A primary followed by calls and property accesses. -/
def callWith (self : Reading Expr) : Reading Expr := do
  iterate (← primaryWith self) fun callee => do
    match ← accept? [.leftParen, .dot] with
    | none => pure (.inr callee)
    | some token =>
      if token.kind = .leftParen then pure (.inl (← finishCallWith self callee))
      else
        let name ← require .identifier .propertyName
        pure (.inl (.property (← fresh) callee name))

/-- The unary operators ahead, outermost first. -/
def unaryOperators : Reading (List Token) :=
  modifyGet fun s =>
    let isOperator (t : Token) : Bool := t.kind ∈ [.bang, .minus]
    (s.ahead.takeWhile isOperator, { s with ahead := s.ahead.dropWhile isOperator })

/-- A call under any number of unary operators. -/
def unaryWith (self : Reading Expr) : Reading Expr := do
  let operators ← unaryOperators
  let operand ← callWith self
  operators.foldrM (fun operator operand => do pure (.unary (← fresh) operator operand)) operand

/-- An expression of any kind. -/
def assignmentWith (self : Reading Expr) : Reading Expr := do
  let target ← binaryFrom (unaryWith self) levels
  match ← accept? [.equal] with
  | none => pure target
  | some equals =>
    let value ← self
    match target with
    | .read _ name => pure (.assign (← fresh) name value)
    | .property _ object name => pure (.setProperty (← fresh) object name value)
    | target =>
      record equals .assignmentTarget
      pure target

/-! ## 3. The knot -/

/-- An expression with at most one expression inside another for each of the given tokens. -/
def expressionAlong : List Token → Reading Expr
  | [] => assignmentWith (fail .tooDeep)
  | _ :: rest => fun s => assignmentWith (expressionAlong rest) s

/-- An expression. An inner expression begins after at least one more token than the outer
one, so there are never more inside one another than there are tokens ahead. -/
def expression : Reading Expr := do
  expressionAlong (← get).ahead

end ScriptLang.Grammar
