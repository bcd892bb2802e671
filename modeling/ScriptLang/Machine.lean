/-
ScriptLang.Machine — the state of a running script.

A machine is the store, two frames of it (the globals and the frame that is
current), the hop counts found before the script ran, the number of calls in
progress, the output and the clock.

The output is a sink of bytes. It may have room for only so many bytes: those
that fit are kept, and the write that does not fit is a fault. It may also
refuse to be flushed.

The clock is a function from the number of readings so far to the time, so a
run is determined by the machine it starts from.

`Exec` is the type of everything that happens on a machine. It keeps the
machine on failure, since a fault does not undo what was done before it, and
it has its own way to end when the fuel of the evaluator is used up.
-/
import ScriptLang.Binding.HopTable
import ScriptLang.Fault
import ScriptLang.Store
import ScriptLang.Text.Utf8

namespace ScriptLang

/-! ## 1. Output -/

/-- How many bytes a sink takes in all, and its fault when there are more. -/
structure Capacity where
  bytes : Nat
  message : String
  deriving DecidableEq, Repr

/-- Where printed text goes. Only two ways to fail are modelled: every write beyond the capacity
fails with the one message of the capacity, and every flush succeeds or every flush fails with one
message. A writer that fails now and then, or with other messages, is not a sink. -/
structure Sink where
  written : Array UInt8
  capacity : Option Capacity
  /-- The fault of flushing, if flushing fails. -/
  flushFault : Option String
  deriving DecidableEq, Repr

/-- A sink that takes everything. -/
def Sink.unbounded : Sink := ⟨#[], none, none⟩

/-- Writes as many of the bytes as fit. The result is the fault if they do not all fit. -/
def Sink.write (sink : Sink) (bytes : List UInt8) : Option String × Sink :=
  match sink.capacity with
  | none => (none, { sink with written := sink.written ++ bytes })
  | some capacity =>
    let room := capacity.bytes - sink.written.size
    let fault := if room < bytes.length then some capacity.message else none
    (fault, { sink with written := sink.written ++ bytes.take room })

/-- What a sink holds, as text. -/
def Sink.text (sink : Sink) : String :=
  Text.Utf8.decodeLossy sink.written.toList

/-! ## 2. Machines -/

/-- A clock that starts at a time in microseconds since the Unix epoch and goes on by one
microsecond with each reading. It tells seconds. -/
def steadyClock (start : Nat) (reading : Nat) : Float :=
  (start + reading).toFloat / 1000000

/-- The state of a running script. -/
structure Machine where
  store : Store
  /-- The frame of the global variables. -/
  globals : Nat
  /-- The current frame. -/
  frame : Nat
  hops : HopTable
  /-- The calls in progress. -/
  depth : Nat
  sink : Sink
  clock : Nat → Float
  /-- How often the clock has been read. -/
  readings : Nat

/-- The deepest nesting of calls. -/
def maxDepth : Nat := 1024

/-- A machine whose only global variable is the function `clock`. -/
def Machine.start (sink : Sink) (clock : Nat → Float) : Machine :=
  let (globals, store) := Store.empty.addFrame none
  let (tell, store) := store.addHost .clock
  { store := store.define globals HostFunction.clock.name tell
    globals := globals
    frame := globals
    hops := .empty
    depth := 0
    sink := sink
    clock := clock
    readings := 0 }

/-! ## 3. Things that happen on a machine -/

/-- Why something that happens on a machine ends early. -/
inductive Halt where
  | fault (fault : Fault)
  /-- The evaluator was not given enough fuel to finish. -/
  | outOfFuel
  deriving DecidableEq, Repr

/-- Something that happens on a machine. -/
abbrev Exec := EStateM Halt Machine

namespace Exec

variable {α : Type}

/-- Fails with a runtime fault at a token. -/
def raise (token : Token) (cause : RuntimeCause) : Exec α :=
  throw (.fault (.runtime token.line cause))

/-- The result of a computation that may have a cause of failure. -/
def ofExcept (token : Token) : Except RuntimeCause α → Exec α
  | .ok a => pure a
  | .error cause => raise token cause

/-- Fails because a name means no variable. -/
def undefined (name : Token) : Exec α :=
  raise name (.undefinedVariable name.lexeme)

/-- A change of the store that has a result. -/
def onStore (change : Store → α × Store) : Exec α := fun m =>
  let { store, globals, frame, hops, depth, sink, clock, readings } := m
  let (a, store) := change store
  .ok a { store, globals, frame, hops, depth, sink, clock, readings }

/-- Prints a value on a line of its own. -/
def printLine (value : Value) : Exec Unit := fun m =>
  let { store, globals, frame, hops, depth, sink, clock, readings } := m
  let (fault?, sink) := sink.write (Text.Utf8.encode (store.display value ++ "\n"))
  let m := { store, globals, frame, hops, depth, sink, clock, readings }
  match fault? with
  | none => .ok () m
  | some message => .error (.fault (.output message)) m

/-- Flushes the output. -/
def flush : Exec Unit := fun m =>
  match m.sink.flushFault with
  | none => .ok () m
  | some message => .error (.fault (.output message)) m

/-- Gives a variable of the current frame a value. -/
def defineHere (name : String) (value : Value) : Exec Unit :=
  modify fun m => { m with store := m.store.define m.frame name value }

/-- Does something in a frame, and goes back to the current frame however it ends. -/
def inFrame (frame : Nat) (body : Exec α) : Exec α := fun m =>
  let back := m.frame
  match body { m with frame := frame } with
  | .ok a m => .ok a { m with frame := back }
  | .error halt m => .error halt { m with frame := back }

/-- Does something as one more call in progress, and counts it off again however it ends. -/
def asCall (body : Exec α) : Exec α := fun m =>
  match body { m with depth := m.depth + 1 } with
  | .ok a m => .ok a { m with depth := m.depth - 1 }
  | .error halt m => .error halt { m with depth := m.depth - 1 }

/-- The value of the variable that an expression mentions: by address if it has a hop count,
otherwise among the globals. -/
def readVariable (id : Nat) (name : Token) : Exec Value := fun m =>
  let value? := match m.hops.get? id with
    | some hops => m.store.getAt? m.frame hops name.lexeme
    | none => m.store.get? m.globals name.lexeme
  match value? with
  | some value => .ok value m
  | none => undefined name m

/-- Changes the variable that an expression mentions. -/
def writeVariable (id : Nat) (name : Token) (value : Value) : Exec Unit := fun m =>
  let frame? := match m.hops.get? id with
    | some hops => m.store.ancestor? hops m.frame
    | none => m.store.find? m.globals name.lexeme
  match frame? with
  | some frame => .ok () { m with store := m.store.define frame name.lexeme value }
  | none => undefined name m

/-- The value of a property of an instance. Fields hide methods, and a method is bound anew
each time. -/
def readProperty (object : Nat) (name : Token) : Exec Value := fun m =>
  match m.store.field? object name.lexeme with
  | some value => .ok value m
  | none =>
    match m.store.methodOf? object name.lexeme with
    | some method => onStore (·.addBoundMethod method object) m
    | none => raise name (.undefinedProperty name.lexeme) m

/-- Calls a function of the host program. -/
def callHost (provided : HostFunction) (paren : Token) (arguments : List Value) : Exec Value :=
  fun m =>
    let shown := arguments.map fun value => (value, m.store.display value)
    let now := m.clock m.readings
    let m := { m with readings := m.readings + 1 }
    match provided.run now shown with
    | .ok value => .ok value m
    | .error message => raise paren (.described .native message) m

end Exec

end ScriptLang
