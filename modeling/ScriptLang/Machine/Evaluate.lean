/-
ScriptLang.Machine.Evaluate — running statements and evaluating expressions.

The evaluator is one family of functions on the trees. A script may loop for
ever, so each of them takes fuel and gives it down one unit at a time; a run
that uses it up ends as `outOfFuel`, which is neither a value nor a fault.

A statement ends normally or with a `return` that is on its way to the call it
leaves (`Flow`). A `return` is not a failure: only the call that it belongs to
looks at its value.

The order of evaluation is left to right throughout: callee before arguments,
object before assigned value, left operand before right operand. The object of
a field assignment is checked before the value is evaluated.

A call checks, in this order, that there is something to call, that the number
of arguments is right, and that there is room for one more call. Calling a
class makes an instance and runs its initializer as part of the same call.
-/
import ScriptLang.Machine
import ScriptLang.Machine.Operator

namespace ScriptLang

/-- How a statement ends. -/
inductive Flow where
  | normal
  /-- A `return` is leaving the innermost call. -/
  | returned (value : Value)
  deriving DecidableEq, Repr

/-! ## 1. Steps without evaluation -/

/-- The value of a constant. -/
def Constant.value : Constant → Value
  | .number x => .number x
  | .text s => .text s
  | .bool b => .bool b
  | .nil => .nil

namespace Exec

/-- Declares a function in the current frame. -/
def declareFunction (routine : Routine) : Exec Unit := do
  let frame := (← get).frame
  let value ← onStore (·.addFunction ⟨routine, frame, false⟩)
  defineHere routine.name.lexeme value

/-- Declares a class in the current frame. Its name exists before its methods do, and a later
method replaces an earlier one of the same name. -/
def declareClass (name : Token) (methods : List Routine) : Exec Unit := do
  defineHere name.lexeme .nil
  let frame := (← get).frame
  let closures := methods.map fun method =>
    (method.name.lexeme, Closure.mk method frame method.isInitializer)
  let value ← onStore (·.addClass ⟨name.lexeme, NameMap.empty.insertAll closures⟩)
  match (← get).store.find? frame name.lexeme with
  | some frame => onStore fun store => ((), store.define frame name.lexeme value)
  | none => undefined name

/-- A new frame for a call: inside the frame of the closure, with the parameters bound to the
arguments in order. -/
def frameForCall (closure : Closure) (arguments : List Value) : Exec Nat :=
  onStore fun store =>
    let (frame, store) := store.addFrame (some closure.frame)
    let names := closure.routine.parameters.map Token.lexeme
    (frame, store.defineAll frame (names.zip arguments))

/-- What a call gives, from how its body ended. -/
def resultOfCall (closure : Closure) (flow : Flow) : Exec Value := do
  if closure.isInitializer then
    pure (((← get).store.getHere? closure.frame selfName).getD .nil)
  else
    match flow with
    | .returned value => pure value
    | .normal => pure .nil

end Exec

/-! ## 2. The evaluator -/

open Exec

mutual
/-- Runs a statement. -/
def execute : Nat → Stmt → Exec Flow
  | 0, _ => throw .outOfFuel
  | fuel + 1, .expression value => do
    let _ ← evaluate fuel value
    pure .normal
  | fuel + 1, .print value => do
    printLine (← evaluate fuel value)
    pure .normal
  | fuel + 1, .var name initializer => do
    defineHere name.lexeme (← evaluateOption fuel initializer)
    pure .normal
  | fuel + 1, .block body => do
    let outer := (← get).frame
    let inner ← onStore (·.addFrame (some outer))
    inFrame inner (executeAll fuel body)
  | fuel + 1, .ifThen condition thenBranch => do
    if (← evaluate fuel condition).isTruthy then execute fuel thenBranch else pure .normal
  | fuel + 1, .ifElse condition thenBranch elseBranch => do
    if (← evaluate fuel condition).isTruthy then execute fuel thenBranch
    else execute fuel elseBranch
  | fuel + 1, .loop condition body => executeLoop fuel condition body
  | _ + 1, .function routine => do
    declareFunction routine
    pure .normal
  | fuel + 1, .ret _ value => do
    pure (.returned (← evaluateOption fuel value))
  | _ + 1, .classDecl name methods => do
    declareClass name methods
    pure .normal

/-- Runs statements in order, up to the first `return`. -/
def executeAll : Nat → List Stmt → Exec Flow
  | 0, _ => throw .outOfFuel
  | _ + 1, [] => pure .normal
  | fuel + 1, statement :: rest => do
    match ← execute fuel statement with
    | .normal => executeAll fuel rest
    | .returned value => pure (.returned value)

/-- Runs a loop from before its condition. -/
def executeLoop : Nat → Expr → Stmt → Exec Flow
  | 0, _, _ => throw .outOfFuel
  | fuel + 1, condition, body => do
    if (← evaluate fuel condition).isTruthy then
      match ← execute fuel body with
      | .normal => executeLoop fuel condition body
      | .returned value => pure (.returned value)
    else pure .normal

/-- Evaluates an expression. -/
def evaluate : Nat → Expr → Exec Value
  | 0, _ => throw .outOfFuel
  | _ + 1, .literal _ constant => pure constant.value
  | fuel + 1, .group _ inner => evaluate fuel inner
  | fuel + 1, .unary _ operator operand => do
    let value ← evaluate fuel operand
    ofExcept operator (Operator.unary operator value)
  | fuel + 1, .binary _ left operator right => do
    let left ← evaluate fuel left
    let right ← evaluate fuel right
    ofExcept operator (Operator.binary operator left right)
  | fuel + 1, .logical _ left operator right => do
    let left ← evaluate fuel left
    if Operator.decides operator left then pure left else evaluate fuel right
  | _ + 1, .read id name => readVariable id name
  | fuel + 1, .assign id name value => do
    let value ← evaluate fuel value
    writeVariable id name value
    pure value
  | fuel + 1, .call _ callee paren arguments => do
    let callee ← evaluate fuel callee
    let arguments ← evaluateAll fuel arguments
    call fuel callee paren arguments
  | fuel + 1, .property _ object name => do
    match ← evaluate fuel object with
    | .object id => readProperty id name
    | _ => raise name .noProperties
  | fuel + 1, .setProperty _ object name value => do
    match ← evaluate fuel object with
    | .object id =>
      let value ← evaluate fuel value
      onStore fun store => ((), store.setField id name.lexeme value)
      pure value
    | _ => raise name .noFields
  | _ + 1, .self id keyword => readVariable id keyword

/-- Evaluates an expression that may be missing, which is worth `nil`. -/
def evaluateOption : Nat → Option Expr → Exec Value
  | 0, _ => throw .outOfFuel
  | _ + 1, none => pure .nil
  | fuel + 1, some value => evaluate fuel value

/-- Evaluates expressions from left to right. -/
def evaluateAll : Nat → List Expr → Exec (List Value)
  | 0, _ => throw .outOfFuel
  | _ + 1, [] => pure []
  | fuel + 1, e :: rest => do
    let value ← evaluate fuel e
    let values ← evaluateAll fuel rest
    pure (value :: values)

/-- Calls a value with arguments. -/
def call : Nat → Value → Token → List Value → Exec Value
  | 0, _, _, _ => throw .outOfFuel
  | fuel + 1, value, paren, arguments => do
    match (← get).store.callee? value with
    | none => raise paren .notCallable
    | some callee =>
      if arguments.length ≠ callee.arity then
        raise paren (.arity callee.arity arguments.length)
      else if maxDepth ≤ (← get).depth then
        raise paren .stackOverflow
      else
        asCall (enter fuel callee paren arguments)

/-- Runs what is called, after the checks. -/
def enter : Nat → Store.Callee → Token → List Value → Exec Value
  | 0, _, _, _ => throw .outOfFuel
  | _ + 1, .host provided, paren, arguments => callHost provided paren arguments
  | fuel + 1, .function closure, _, arguments => invoke fuel closure arguments
  | fuel + 1, .classRef classId info, _, arguments => do
    let object ← onStore (·.addObject classId)
    match info.methods.get? initializerName with
    | some initializer =>
      let bound ← onStore (·.bindMethod initializer object)
      let _ ← invoke fuel bound arguments
      pure (.object object)
    | none => pure (.object object)

/-- Runs the body of a closure on arguments. -/
def invoke : Nat → Closure → List Value → Exec Value
  | 0, _, _ => throw .outOfFuel
  | fuel + 1, closure, arguments => do
    let frame ← frameForCall closure arguments
    let flow ← inFrame frame (executeAll fuel closure.routine.body)
    resultOfCall closure flow
end

/-! ## 3. Scripts -/

/-- Runs the statements of a script in order, up to the first failure. A `return` among them
ends nothing but its own statement. -/
def executeScript (fuel : Nat) : List Stmt → Exec Unit
  | [] => pure ()
  | statement :: rest => do
    let _ ← execute fuel statement
    executeScript fuel rest

/-- Runs a script and flushes the output, also after a fault. A fault of flushing takes the
place of the fault before it. -/
def interpret (fuel : Nat) (statements : List Stmt) : Exec Unit := fun m =>
  match executeScript fuel statements m with
  | .ok () m => flush m
  | .error (.fault fault) m =>
    match flush m with
    | .ok () m => .error (.fault fault) m
    | .error halt m => .error halt m
  | .error .outOfFuel m => .error .outOfFuel m

end ScriptLang
