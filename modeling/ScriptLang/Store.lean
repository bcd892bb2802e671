/-
ScriptLang.Store — variables, functions, classes and instances.

The store is five growing lists. An entry is named by its position, nothing
is ever removed, and what an entry refers to was there before it; so a frame's
chain of enclosing frames always leads to earlier and earlier frames.

A frame holds the variables of one activation of a scope. There are two ways
to reach a variable from a frame. *Searching* (`get?`, `assign?`) goes outward
to the first frame that has the name. *Addressing* (`getAt?`, `assignAt?`)
goes a given number of links outward and looks only there. A write by address
creates the variable if it is missing; a write by search does not.
-/
import ScriptLang.NameMap
import ScriptLang.Text.Quoted
import ScriptLang.Tree
import ScriptLang.Value

namespace ScriptLang

/-! ## 1. Entries -/

/-- The variables of one activation of a scope, and the frame around it. -/
structure Frame where
  bindings : NameMap Value
  enclosing : Option Nat
  deriving DecidableEq, Repr

/-- A routine together with the frame it was declared in. -/
structure Closure where
  routine : Routine
  frame : Nat
  /-- An initializer yields the instance it was called on, whatever its body does. -/
  isInitializer : Bool

/-- A class: its name and its methods. -/
structure ClassInfo where
  name : String
  methods : NameMap Closure

/-- An instance: its class and the fields assigned so far. -/
structure Object where
  classId : Nat
  fields : NameMap Value
  deriving DecidableEq, Repr

/-- A function that the host program provides. It is given the time, in seconds since the
Unix epoch, and its arguments with their printed texts, and gives a value or the text of a
fault. -/
structure HostFunction where
  name : String
  arity : Nat
  run : Float → List (Value × String) → Except String Value

/-- The function that tells the time. -/
def HostFunction.clock : HostFunction where
  name := "clock"
  arity := 0
  run now _ := .ok (.number now)

/-- Everything that values can point at. -/
structure Store where
  frames : Array Frame
  hosts : Array HostFunction
  functions : Array Closure
  classes : Array ClassInfo
  objects : Array Object

namespace Store

/-- The store without entries. -/
def empty : Store := ⟨#[], #[], #[], #[], #[]⟩

/-! ## 2. New entries -/

/-- A frame without variables. -/
def addFrame (s : Store) (enclosing : Option Nat) : Nat × Store :=
  (s.frames.size, { s with frames := s.frames.push ⟨.empty, enclosing⟩ })

/-- A new host function. -/
def addHost (s : Store) (host : HostFunction) : Value × Store :=
  (.host s.hosts.size, { s with hosts := s.hosts.push host })

/-- A new function, different from every other. -/
def addFunction (s : Store) (closure : Closure) : Value × Store :=
  (.function s.functions.size, { s with functions := s.functions.push closure })

/-- A new class, different from every other. -/
def addClass (s : Store) (info : ClassInfo) : Value × Store :=
  (.classRef s.classes.size, { s with classes := s.classes.push info })

/-- An instance without fields. -/
def addObject (s : Store) (classId : Nat) : Nat × Store :=
  (s.objects.size, { s with objects := s.objects.push ⟨classId, .empty⟩ })

/-! ## 3. Variables of one frame -/

/-- The value of a variable of a frame itself. -/
def getHere? (s : Store) (frame : Nat) (name : String) : Option Value :=
  s.frames[frame]?.bind (·.bindings.get? name)

/-- Gives a variable of a frame a value, creating it if need be. -/
def define (s : Store) (frame : Nat) (name : String) (value : Value) : Store :=
  { s with frames := s.frames.modify frame fun f =>
      { f with bindings := f.bindings.insert name value } }

/-- Gives some variables of a frame values, one after the other. -/
def defineAll (s : Store) (frame : Nat) (pairs : List (String × Value)) : Store :=
  pairs.foldl (fun s pair => s.define frame pair.1 pair.2) s

/-- The frame around a frame. -/
def enclosing? (s : Store) (frame : Nat) : Option Nat :=
  s.frames[frame]?.bind Frame.enclosing

/-! ## 4. Variables by search -/

/-- The nearest frame that has a variable, among the first `links` on the way outward. -/
def findWithin (s : Store) (name : String) : Nat → Nat → Option Nat
  | 0, _ => none
  | links + 1, frame =>
    if (s.getHere? frame name).isSome then some frame
    else (s.enclosing? frame).bind (s.findWithin name links)

/-- The nearest frame that has a variable. No chain is longer than the list of frames. -/
def find? (s : Store) (frame : Nat) (name : String) : Option Nat :=
  s.findWithin name s.frames.size frame

/-- The value of the nearest variable of a name. -/
def get? (s : Store) (frame : Nat) (name : String) : Option Value :=
  (s.find? frame name).bind (s.getHere? · name)

/-- Changes the nearest variable of a name. -/
def assign? (s : Store) (frame : Nat) (name : String) (value : Value) : Option Store :=
  (s.find? frame name).map (s.define · name value)

/-! ## 5. Variables by address -/

/-- The frame that is `hops` links outward. -/
def ancestor? (s : Store) : Nat → Nat → Option Nat
  | 0, frame => some frame
  | hops + 1, frame => (s.enclosing? frame).bind (s.ancestor? hops)

/-- The value of a variable exactly `hops` links outward. -/
def getAt? (s : Store) (frame hops : Nat) (name : String) : Option Value :=
  (s.ancestor? hops frame).bind (s.getHere? · name)

/-- Changes or creates a variable exactly `hops` links outward. -/
def assignAt? (s : Store) (frame hops : Nat) (name : String) (value : Value) : Option Store :=
  (s.ancestor? hops frame).map (s.define · name value)

/-! ## 6. Methods and fields -/

/-- A copy of a method that runs on an instance: its frame is a new one, inside the frame of
the method, that holds the instance. -/
def bindMethod (s : Store) (method : Closure) (object : Nat) : Closure × Store :=
  let (frame, s) := s.addFrame (some method.frame)
  ({ method with frame := frame }, s.define frame selfName (.object object))

/-- The method of an instance's class. -/
def methodOf? (s : Store) (object : Nat) (name : String) : Option Closure := do
  let object ← s.objects[object]?
  let info ← s.classes[object.classId]?
  info.methods.get? name

/-- The value of a field of an instance. -/
def field? (s : Store) (object : Nat) (name : String) : Option Value :=
  s.objects[object]?.bind (·.fields.get? name)

/-- A method of an instance as a value: a new function, bound to the instance. -/
def addBoundMethod (s : Store) (method : Closure) (object : Nat) : Value × Store :=
  let (closure, s) := s.bindMethod method object
  s.addFunction closure

/-- Gives a field of an instance a value, creating it if need be. -/
def setField (s : Store) (object : Nat) (name : String) (value : Value) : Store :=
  { s with objects := s.objects.modify object fun o =>
      { o with fields := o.fields.insert name value } }

/-! ## 7. Calls -/

/-- What can be called. -/
inductive Callee where
  | host (provided : HostFunction)
  | function (closure : Closure)
  | classRef (id : Nat) (info : ClassInfo)

/-- The callee that a value stands for. -/
def callee? (s : Store) : Value → Option Callee
  | .host id => s.hosts[id]?.map .host
  | .function id => s.functions[id]?.map .function
  | .classRef id => s.classes[id]?.map (.classRef id)
  | _ => none

/-- The number of arguments a callee takes. A class takes those of its initializer, or
none. -/
def Callee.arity : Callee → Nat
  | .host provided => provided.arity
  | .function closure => closure.routine.parameters.length
  | .classRef _ info =>
    ((info.methods.get? initializerName).map (·.routine.parameters.length)).getD 0

/-! ## 8. Texts -/

/-- The declared name of a function. -/
def functionName (s : Store) (id : Nat) : String :=
  (s.functions[id]?.map (·.routine.name.lexeme)).getD ""

/-- The name of a class. -/
def className (s : Store) (id : Nat) : String :=
  (s.classes[id]?.map ClassInfo.name).getD ""

/-- The name of an instance's class. -/
def objectClassName (s : Store) (id : Nat) : String :=
  (s.objects[id]?.map (s.className ·.classId)).getD ""

/-- The text of a value as scripts print it. -/
def display (s : Store) : Value → String
  | .nil => "nil"
  | .bool true => "true"
  | .bool false => "false"
  | .number x => Value.numberText x
  | .text t => t
  | .host _ => "<native fn>"
  | .function id => "<fn " ++ s.functionName id ++ ">"
  | .classRef id => s.className id
  | .object id => s.objectClassName id ++ " instance"

/-- A longer text for a value that lives in the store, which also names a host function and
the fields of an instance. -/
def inspect? (s : Store) : Value → Option String
  | .host id => some ("<native fn " ++ (s.hosts[id]?.map HostFunction.name).getD "" ++ ">")
  | .function id => some ("<fn " ++ s.functionName id ++ ">")
  | .classRef id => some ("<class " ++ s.className id ++ ">")
  | .object id =>
    let quoted := Text.Quoted.quote Text.Quoted.shown
    let fields := (s.objects[id]?.map (·.fields.entries.map (quoted ·.1))).getD []
    some ("Instance \x7b class: " ++ quoted (s.objectClassName id) ++ ", fields: ["
      ++ ", ".intercalate fields ++ "] \x7d")
  | _ => none

end Store

end ScriptLang
