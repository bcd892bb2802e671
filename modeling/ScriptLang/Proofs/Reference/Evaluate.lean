/-
ScriptLang.Proofs.Reference.Evaluate — an evaluator without frames and hop
counts.

It runs the same trees as `ScriptLang.execute`, with the textbook reading of
lexical scope. The local variables in force are a map from names to locations.
The map is never changed: a declaration makes a new location and goes on with
a larger map, a function or method captures the map at its declaration, and a
name that is not in the map is looked up in the one table of global variables.

The location of a variable is made before its initializer is evaluated and has
no value until then. Reading it is the same fault as reading a name that does
not exist.

Fuel is used up as in `ScriptLang.execute`, call for call, so that the two can
be compared run for run and not only result for result.
-/
import ScriptLang.Machine.Evaluate

namespace ScriptLang.Reference

/-! ## 1. States -/

/-- The locations of the local variables in force. -/
abbrev Locals := NameMap Nat

/-- Where a statement stands: at the top level, where declarations are global, or inside a
block or routine, with the local variables in force there. -/
inductive Env where
  | top
  | inside (locals : Locals)

/-- The local variables in force. -/
def Env.locals : Env → Locals
  | .top => .empty
  | .inside locals => locals

/-- A routine with the local variables in force at its declaration. -/
structure Closure where
  routine : Routine
  locals : Locals
  isInitializer : Bool

/-- A class: its name and its methods. -/
structure ClassInfo where
  name : String
  methods : NameMap Closure

/-- Everything that names and values can stand for. -/
structure Store where
  globals : NameMap Value
  /-- The local variables by location; one that is being initialized has no value. -/
  cells : Array (Option Value)
  hosts : Array HostFunction
  functions : Array Closure
  classes : Array ClassInfo
  objects : Array Object

namespace Store

/-- A new location, without a value. -/
def addCell (s : Store) : Nat × Store :=
  (s.cells.size, { s with cells := s.cells.push none })

/-- Gives a location a value. -/
def write (s : Store) (location : Nat) (value : Value) : Store :=
  { s with cells := s.cells.setIfInBounds location (some value) }

/-- A new location that has a value. -/
def addValue (s : Store) (value : Value) : Nat × Store :=
  (s.cells.size, { s with cells := s.cells.push (some value) })

/-- Gives a global variable a value, creating it if need be. -/
def defineGlobal (s : Store) (name : String) (value : Value) : Store :=
  { s with globals := s.globals.insert name value }

/-- A new function, different from every other. -/
def addFunction (s : Store) (closure : Closure) : Value × Store :=
  (.function s.functions.size, { s with functions := s.functions.push closure })

/-- A new class, different from every other. -/
def addClass (s : Store) (info : ClassInfo) : Value × Store :=
  (.classRef s.classes.size, { s with classes := s.classes.push info })

/-- An instance without fields. -/
def addObject (s : Store) (classId : Nat) : Nat × Store :=
  (s.objects.size, { s with objects := s.objects.push ⟨classId, .empty⟩ })

/-- A copy of a method for which `this` is an instance. -/
def bindMethod (s : Store) (method : Closure) (object : Nat) : Closure × Store :=
  let (location, s) := s.addValue (.object object)
  ({ method with locals := method.locals.insert selfName location }, s)

/-- A method of an instance as a value: a new function, bound to the instance. -/
def addBoundMethod (s : Store) (method : Closure) (object : Nat) : Value × Store :=
  let (closure, s) := s.bindMethod method object
  s.addFunction closure

/-- The method of an instance's class. -/
def methodOf? (s : Store) (object : Nat) (name : String) : Option Closure := do
  let object ← s.objects[object]?
  let info ← s.classes[object.classId]?
  info.methods.get? name

/-- The value of a field of an instance. -/
def field? (s : Store) (object : Nat) (name : String) : Option Value :=
  s.objects[object]?.bind (·.fields.get? name)

/-- Gives a field of an instance a value, creating it if need be. -/
def setField (s : Store) (object : Nat) (name : String) (value : Value) : Store :=
  { s with objects := s.objects.modify object fun o =>
      { o with fields := o.fields.insert name value } }

/-- What can be called. -/
inductive Callee where
  | host (provided : HostFunction)
  | function (closure : Closure)
  | classRef (id : Nat) (info : ClassInfo)

/-- The callee that a value stands for. -/
def callee? (s : Store) : Value → Option Callee
  | .host id => s.hosts[id]?.map .host
  | .function id => s.functions[id]?.map .function
  | .classRef id => s.classes[id]?.map (.classRef id)
  | _ => none

/-- The number of arguments a callee takes. -/
def Callee.arity : Callee → Nat
  | .host provided => provided.arity
  | .function closure => closure.routine.parameters.length
  | .classRef _ info =>
    ((info.methods.get? initializerName).map (·.routine.parameters.length)).getD 0

/-- The name of a class. -/
def className (s : Store) (id : Nat) : String :=
  (s.classes[id]?.map ClassInfo.name).getD ""

/-- The text of a value as scripts print it. -/
def display (s : Store) : Value → String
  | .function id => "<fn " ++ (s.functions[id]?.map (·.routine.name.lexeme)).getD "" ++ ">"
  | .classRef id => s.className id
  | .object id => (s.objects[id]?.map (s.className ·.classId)).getD "" ++ " instance"
  | value => ScriptLang.Store.empty.display value

end Store

/-- The state of a running script. -/
structure Machine where
  store : Store
  depth : Nat
  sink : Sink
  clock : Nat → Float
  readings : Nat

/-- Something that happens on a machine. -/
abbrev Exec := EStateM Halt Machine

/-! ## 2. Steps without evaluation -/

namespace Exec

variable {α : Type}

/-- Fails with a runtime fault at a token. -/
def raise (token : Token) (cause : RuntimeCause) : Exec α :=
  throw (.fault (.runtime token.line cause))

/-- The result of a computation that may have a cause of failure. -/
def ofExcept (token : Token) : Except RuntimeCause α → Exec α
  | .ok a => pure a
  | .error cause => raise token cause

/-- A change of the store that has a result. -/
def onStore (change : Store → α × Store) : Exec α :=
  modifyGet fun m => ((change m.store).1, { m with store := (change m.store).2 })

theorem onStore_eq (change : Store → α × Store) (m : Machine) :
    onStore change m = .ok (change m.store).1 { m with store := (change m.store).2 } := rfl

/-- Prints a value on a line of its own. -/
def printLine (value : Value) : Exec Unit := fun m =>
  let (fault?, sink) := m.sink.write (Text.Utf8.encode (m.store.display value ++ "\n"))
  match fault? with
  | none => .ok () { m with sink := sink }
  | some message => .error (.fault (.output message)) { m with sink := sink }

/-- Flushes the output. -/
def flush : Exec Unit := fun m =>
  match m.sink.flushFault with
  | none => .ok () m
  | some message => .error (.fault (.output message)) m

/-- Does something as one more call in progress, and counts it off again however it ends. -/
def asCall (body : Exec α) : Exec α := fun m =>
  match body { m with depth := m.depth + 1 } with
  | .ok a m => .ok a { m with depth := m.depth - 1 }
  | .error halt m => .error halt { m with depth := m.depth - 1 }

/-- Makes room for a variable: a new location if it is a local one. -/
def declare (env : Env) (name : String) : Exec Env :=
  match env with
  | .top => pure .top
  | .inside locals => do
    let location ← onStore Store.addCell
    pure (.inside (locals.insert name location))

/-- Gives a declared variable its value. -/
def define (env : Env) (name : String) (value : Value) : Exec Unit :=
  match env with
  | .top => onStore fun store => ((), store.defineGlobal name value)
  | .inside locals =>
    match locals.get? name with
    | some location => onStore fun store => ((), store.write location value)
    | none => pure ()

/-- The value of a variable. -/
def readVariable (locals : Locals) (name : Token) : Exec Value := fun m =>
  let value? := match locals.get? name.lexeme with
    | some location => m.store.cells[location]?.join
    | none => m.store.globals.get? name.lexeme
  match value? with
  | some value => .ok value m
  | none => raise name (.undefinedVariable name.lexeme) m

/-- Changes a variable. -/
def writeVariable (locals : Locals) (name : Token) (value : Value) : Exec Unit := fun m =>
  match locals.get? name.lexeme with
  | some location => .ok () { m with store := m.store.write location value }
  | none =>
    if m.store.globals.contains name.lexeme then
      .ok () { m with store := m.store.defineGlobal name.lexeme value }
    else raise name (.undefinedVariable name.lexeme) m

/-- The value of a property of an instance. -/
def readProperty (object : Nat) (name : Token) : Exec Value := fun m =>
  match m.store.field? object name.lexeme with
  | some value => .ok value m
  | none =>
    match m.store.methodOf? object name.lexeme with
    | some method => onStore (·.addBoundMethod method object) m
    | none => raise name (.undefinedProperty name.lexeme) m

/-- Calls a function of the host program. -/
def callHost (provided : HostFunction) (paren : Token) (arguments : List Value) : Exec Value :=
  fun m =>
    let shown := arguments.map fun value => (value, m.store.display value)
    let now := m.clock m.readings
    let m := { m with readings := m.readings + 1 }
    match provided.run now shown with
    | .ok value => .ok value m
    | .error message => raise paren (.described .native message) m

/-- The local variables of a call: those of the closure, and a new one for each parameter. -/
def bindParameters : Locals → List (String × Value) → Exec Locals
  | locals, [] => pure locals
  | locals, (name, value) :: rest => do
    let location ← onStore (·.addValue value)
    bindParameters (locals.insert name location) rest

/-- What a call gives, from how its body ended. An initializer gives what `this` is. -/
def resultOfCall (closure : Closure) (flow : Flow) : Exec Value := fun m =>
  if closure.isInitializer then
    .ok (((closure.locals.get? selfName).bind (m.store.cells[·]?.join)).getD .nil) m
  else
    match flow with
    | .returned value => .ok value m
    | .normal => .ok .nil m

end Exec

/-! ## 3. The evaluator -/

open Reference.Exec

mutual
/-- Runs a statement. The result says how it ends and where the next statement stands. -/
def execute : Nat → Env → Stmt → Exec (Flow × Env)
  | 0, _, _ => throw .outOfFuel
  | fuel + 1, env, .expression value => do
    let _ ← evaluate fuel env.locals value
    pure (.normal, env)
  | fuel + 1, env, .print value => do
    printLine (← evaluate fuel env.locals value)
    pure (.normal, env)
  | fuel + 1, env, .var name initializer => do
    let env ← declare env name.lexeme
    let value ← evaluateOption fuel env.locals initializer
    define env name.lexeme value
    pure (.normal, env)
  | fuel + 1, env, .block body => do
    let flow ← executeAll fuel (.inside env.locals) body
    pure (flow, env)
  | fuel + 1, env, .ifThen condition thenBranch => do
    if (← evaluate fuel env.locals condition).isTruthy then execute fuel env thenBranch
    else pure (.normal, env)
  | fuel + 1, env, .ifElse condition thenBranch elseBranch => do
    if (← evaluate fuel env.locals condition).isTruthy then execute fuel env thenBranch
    else execute fuel env elseBranch
  | fuel + 1, env, .loop condition body => do
    let flow ← executeLoop fuel env condition body
    pure (flow, env)
  | _ + 1, env, .function routine => do
    let env ← declare env routine.name.lexeme
    let value ← onStore (·.addFunction ⟨routine, env.locals, false⟩)
    define env routine.name.lexeme value
    pure (.normal, env)
  | fuel + 1, env, .ret _ value => do
    let value ← evaluateOption fuel env.locals value
    pure (.returned value, env)
  | _ + 1, env, .classDecl name methods => do
    let env ← declare env name.lexeme
    define env name.lexeme .nil
    let closures := methods.map fun method =>
      (method.name.lexeme, Closure.mk method env.locals method.isInitializer)
    let value ← onStore (·.addClass ⟨name.lexeme, NameMap.empty.insertAll closures⟩)
    define env name.lexeme value
    pure (.normal, env)

/-- Runs statements in order, up to the first `return`. -/
def executeAll : Nat → Env → List Stmt → Exec Flow
  | 0, _, _ => throw .outOfFuel
  | _ + 1, _, [] => pure .normal
  | fuel + 1, env, statement :: rest => do
    match ← execute fuel env statement with
    | (.normal, env) => executeAll fuel env rest
    | (.returned value, _) => pure (.returned value)

/-- Runs a loop from before its condition. -/
def executeLoop : Nat → Env → Expr → Stmt → Exec Flow
  | 0, _, _, _ => throw .outOfFuel
  | fuel + 1, env, condition, body => do
    if (← evaluate fuel env.locals condition).isTruthy then
      match ← execute fuel env body with
      | (.normal, _) => executeLoop fuel env condition body
      | (.returned value, _) => pure (.returned value)
    else pure .normal

/-- Evaluates an expression. -/
def evaluate : Nat → Locals → Expr → Exec Value
  | 0, _, _ => throw .outOfFuel
  | _ + 1, _, .literal _ constant => pure constant.value
  | fuel + 1, locals, .group _ inner => evaluate fuel locals inner
  | fuel + 1, locals, .unary _ operator operand => do
    let value ← evaluate fuel locals operand
    ofExcept operator (Operator.unary operator value)
  | fuel + 1, locals, .binary _ left operator right => do
    let left ← evaluate fuel locals left
    let right ← evaluate fuel locals right
    ofExcept operator (Operator.binary operator left right)
  | fuel + 1, locals, .logical _ left operator right => do
    let left ← evaluate fuel locals left
    if Operator.decides operator left then pure left else evaluate fuel locals right
  | _ + 1, locals, .read _ name => readVariable locals name
  | fuel + 1, locals, .assign _ name value => do
    let value ← evaluate fuel locals value
    writeVariable locals name value
    pure value
  | fuel + 1, locals, .call _ callee paren arguments => do
    let callee ← evaluate fuel locals callee
    let arguments ← evaluateAll fuel locals arguments
    call fuel callee paren arguments
  | fuel + 1, locals, .property _ object name => do
    match ← evaluate fuel locals object with
    | .object id => readProperty id name
    | _ => raise name .noProperties
  | fuel + 1, locals, .setProperty _ object name value => do
    match ← evaluate fuel locals object with
    | .object id =>
      let value ← evaluate fuel locals value
      onStore fun store => ((), store.setField id name.lexeme value)
      pure value
    | _ => raise name .noFields
  | _ + 1, locals, .self _ keyword => readVariable locals keyword

/-- Evaluates an expression that may be missing, which is worth `nil`. -/
def evaluateOption : Nat → Locals → Option Expr → Exec Value
  | 0, _, _ => throw .outOfFuel
  | _ + 1, _, none => pure .nil
  | fuel + 1, locals, some value => evaluate fuel locals value

/-- Evaluates expressions from left to right. -/
def evaluateAll : Nat → Locals → List Expr → Exec (List Value)
  | 0, _, _ => throw .outOfFuel
  | _ + 1, _, [] => pure []
  | fuel + 1, locals, e :: rest => do
    let value ← evaluate fuel locals e
    let values ← evaluateAll fuel locals rest
    pure (value :: values)

/-- Calls a value with arguments. -/
def call : Nat → Value → Token → List Value → Exec Value
  | 0, _, _, _ => throw .outOfFuel
  | fuel + 1, value, paren, arguments => do
    match (← get).store.callee? value with
    | none => raise paren .notCallable
    | some callee =>
      if arguments.length ≠ callee.arity then
        raise paren (.arity callee.arity arguments.length)
      else if maxDepth ≤ (← get).depth then
        raise paren .stackOverflow
      else
        asCall (enter fuel callee paren arguments)

/-- Runs what is called, after the checks. -/
def enter : Nat → Store.Callee → Token → List Value → Exec Value
  | 0, _, _, _ => throw .outOfFuel
  | _ + 1, .host provided, paren, arguments => callHost provided paren arguments
  | fuel + 1, .function closure, _, arguments => invoke fuel closure arguments
  | fuel + 1, .classRef classId info, _, arguments => do
    let object ← onStore (·.addObject classId)
    match info.methods.get? initializerName with
    | some initializer =>
      let bound ← onStore (·.bindMethod initializer object)
      let _ ← invoke fuel bound arguments
      pure (.object object)
    | none => pure (.object object)

/-- Runs the body of a closure on arguments. -/
def invoke : Nat → Closure → List Value → Exec Value
  | 0, _, _ => throw .outOfFuel
  | fuel + 1, closure, arguments => do
    let names := closure.routine.parameters.map Token.lexeme
    let locals ← bindParameters closure.locals (names.zip arguments)
    let flow ← executeAll fuel (.inside locals) closure.routine.body
    resultOfCall closure flow
end

/-! ## 4. Scripts -/

/-- Runs the statements of a script in order, up to the first failure. -/
def executeScript (fuel : Nat) : List Stmt → Exec Unit
  | [] => pure ()
  | statement :: rest => do
    let _ ← execute fuel .top statement
    executeScript fuel rest

/-- Runs a script and flushes the output, also after a fault. -/
def interpret (fuel : Nat) (statements : List Stmt) : Exec Unit := fun m =>
  match executeScript fuel statements m with
  | .ok () m => flush m
  | .error (.fault fault) m =>
    match flush m with
    | .ok () m => .error (.fault fault) m
    | .error halt m => .error halt m
  | .error .outOfFuel m => .error .outOfFuel m

end ScriptLang.Reference
