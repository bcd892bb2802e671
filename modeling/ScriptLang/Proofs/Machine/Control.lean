/-
ScriptLang.Proofs.Machine.Control — what running leaves as it was.

A run changes the store, adds to what is printed and reads the clock. Whatever
else a machine holds is after every task as it was before, however the task
ends (`restores`): the current frame, because a block and a body go back to the
frame they were entered from, and the number of calls in progress, because a
call counts itself off again.

So a task is visited with at most `maxDepth` calls in progress, and a call is
refused for want of room only when there are exactly as many
(`Raises.overflows`). Whoever comes to such a call fails for this reason, and
nobody else does (`overflows_of_fails`, `ScriptVisits.overflows`).
-/
import ScriptLang.Proofs.Machine.Fuel
import ScriptLang.Proofs.Machine.Tracing

namespace ScriptLang

open Exec

/-! ## 1. Restoring -/

section Restoring

variable {α β : Type}

/-- The machine that something leaves behind, however it ends. -/
def Exec.left (x : Exec α) (m : Machine) : Machine :=
  match x m with
  | .ok _ m' => m'
  | .error _ m' => m'

/-- Two machines differ at most in the store, in what is printed and in how often the clock has
been read. -/
def Restored (m m' : Machine) : Prop :=
  ∃ store written readings, m' =
    { m with store := store, sink := { m.sink with written := written }, readings := readings }

namespace Restored

variable {m m₁ m' : Machine}

theorem refl (m : Machine) : Restored m m := ⟨m.store, m.sink.written, m.readings, rfl⟩

theorem trans (h : Restored m m₁) (h' : Restored m₁ m') : Restored m m' := by
  obtain ⟨store₁, written₁, readings₁, rfl⟩ := h
  obtain ⟨store, written, readings, rfl⟩ := h'
  exact ⟨store, written, readings, rfl⟩

theorem of_store (m : Machine) (store : Store) : Restored m { m with store := store } :=
  ⟨store, m.sink.written, m.readings, rfl⟩

theorem frame_eq (h : Restored m m') : m'.frame = m.frame := by
  obtain ⟨store, written, readings, rfl⟩ := h
  rfl

theorem globals_eq (h : Restored m m') : m'.globals = m.globals := by
  obtain ⟨store, written, readings, rfl⟩ := h
  rfl

theorem depth_eq (h : Restored m m') : m'.depth = m.depth := by
  obtain ⟨store, written, readings, rfl⟩ := h
  rfl

theorem flushFault_eq (h : Restored m m') : m'.sink.flushFault = m.sink.flushFault := by
  obtain ⟨store, written, readings, rfl⟩ := h
  rfl

end Restored

/-- On every machine, something leaves only the store, what is printed and the readings of the
clock changed. -/
def Restores (x : Exec α) : Prop :=
  ∀ m, Restored m (x.left m)

theorem Restores.ok {x : Exec α} (h : Restores x) {m m' : Machine} {a : α} (hx : x m = .ok a m') :
    Restored m m' := by
  have hleft := h m
  rwa [Exec.left, hx] at hleft

theorem Restores.error {x : Exec α} (h : Restores x) {m m' : Machine} {halt : Halt}
    (hx : x m = .error halt m') : Restored m m' := by
  have hleft := h m
  rwa [Exec.left, hx] at hleft

theorem restores_pure (a : α) : Restores (pure a : Exec α) := fun m => .refl m

theorem restores_throw (halt : Halt) : Restores (throw halt : Exec α) := fun m => .refl m

theorem restores_raise (token : Token) (cause : RuntimeCause) :
    Restores (raise token cause : Exec α) := restores_throw _

theorem restores_get : Restores (get : Exec Machine) := fun m => .refl m

theorem restores_onStore (change : Store → α × Store) : Restores (onStore change) :=
  fun m => .of_store m _

theorem restores_defineHere (name : String) (value : Value) : Restores (defineHere name value) :=
  fun m => .of_store m _

theorem Restores.bind {x : Exec α} {f : α → Exec β} (h : Restores x)
    (hrest : ∀ a, Restores (f a)) : Restores (x >>= f) := by
  intro m
  change Restored m (Exec.left (EStateM.bind x f) m)
  unfold Exec.left EStateM.bind
  cases hx : x m with
  | ok a m₁ => exact (h.ok hx).trans (hrest a m₁)
  | error halt m₁ => exact h.error hx

/-- The frame that was current before is current again. -/
theorem Restores.inFrame {x : Exec α} (h : Restores x) (frame : Nat) :
    Restores (inFrame frame x) := by
  intro m
  unfold Exec.left Exec.inFrame
  cases hx : x { m with frame := frame } with
  | ok a m₁ =>
    obtain ⟨store, written, readings, rfl⟩ := h.ok hx
    exact ⟨store, written, readings, rfl⟩
  | error halt m₁ =>
    obtain ⟨store, written, readings, rfl⟩ := h.error hx
    exact ⟨store, written, readings, rfl⟩

/-- The call is counted off again. -/
theorem Restores.asCall {x : Exec α} (h : Restores x) : Restores (asCall x) := by
  intro m
  unfold Exec.left Exec.asCall
  cases hx : x { m with depth := m.depth + 1 } with
  | ok a m₁ =>
    obtain ⟨store, written, readings, rfl⟩ := h.ok hx
    exact ⟨store, written, readings, rfl⟩
  | error halt m₁ =>
    obtain ⟨store, written, readings, rfl⟩ := h.error hx
    exact ⟨store, written, readings, rfl⟩

end Restoring

/-! ## 2. Steps without evaluation -/

section Steps

theorem restores_ofExcept {α : Type} (token : Token) (result : Except RuntimeCause α) :
    Restores (ofExcept token result) := by
  cases result with
  | ok a => exact restores_pure a
  | error cause => exact restores_raise token cause

/-- Writing to a sink adds to what is printed. -/
theorem write_eq (sink : Sink) (bytes : List UInt8) :
    ∃ written, (sink.write bytes).2 = { sink with written := written } := by
  unfold Sink.write
  cases sink.capacity <;> exact ⟨_, rfl⟩

theorem restores_printLine (value : Value) : Restores (printLine value) := by
  intro m
  obtain ⟨written, hwritten⟩ :=
    write_eq m.sink (Text.Utf8.encode (m.store.display value ++ "\n"))
  unfold Exec.left printLine
  dsimp only
  cases (m.sink.write (Text.Utf8.encode (m.store.display value ++ "\n"))).1 <;>
    exact ⟨m.store, written, m.readings, by rw [hwritten]⟩

theorem restores_flush : Restores flush := by
  intro m
  unfold Exec.left flush
  cases m.sink.flushFault <;> exact .refl m

theorem restores_readVariable (id : Nat) (name : Token) : Restores (readVariable id name) := by
  intro m
  unfold Exec.left readVariable
  dsimp only
  split <;> rename_i h <;> split at h <;> cases h <;> exact .refl m

theorem restores_writeVariable (id : Nat) (name : Token) (value : Value) :
    Restores (writeVariable id name value) := by
  intro m
  unfold Exec.left writeVariable
  dsimp only
  split <;> rename_i h <;> split at h <;> cases h
  · exact .of_store m _
  · exact .refl m

theorem restores_readProperty (object : Nat) (name : Token) :
    Restores (readProperty object name) := by
  intro m
  unfold Exec.left readProperty
  cases m.store.field? object name.lexeme with
  | some value => exact .refl m
  | none =>
    cases m.store.methodOf? object name.lexeme with
    | some method => exact .of_store m _
    | none => exact .refl m

theorem restores_callHost (provided : HostFunction) (paren : Token) (arguments : List Value) :
    Restores (callHost provided paren arguments) := by
  intro m
  unfold Exec.left callHost
  dsimp only
  cases provided.run (m.clock m.readings) _ <;>
    exact ⟨m.store, m.sink.written, m.readings + 1, rfl⟩

theorem restores_declareFunction (routine : Routine) : Restores (declareFunction routine) :=
  restores_get.bind fun _ => (restores_onStore _).bind fun _ => restores_defineHere _ _

theorem restores_declareClass (name : Token) (methods : List Routine) :
    Restores (declareClass name methods) := by
  refine (restores_defineHere _ _).bind fun _ => restores_get.bind fun m => ?_
  refine (restores_onStore _).bind fun _ => restores_get.bind fun m' => ?_
  cases m'.store.find? m.frame name.lexeme with
  | some frame => exact restores_onStore _
  | none => exact restores_raise _ _

theorem restores_resultOfCall (closure : Closure) (flow : Flow) :
    Restores (resultOfCall closure flow) := by
  unfold resultOfCall
  split
  · exact restores_get.bind fun _ => restores_pure _
  · cases flow <;> exact restores_pure _

end Steps

/-! ## 3. Tasks -/

section Tasks

variable {fuel : Nat}

theorem restores_execute (ih : ∀ task : Task, Restores (task.run fuel)) (s : Stmt) :
    Restores (execute (fuel + 1) s) := by
  cases s with
  | expression value => exact (ih (.evaluate value)).bind fun _ => restores_pure _
  | print value =>
    exact (ih (.evaluate value)).bind fun _ => (restores_printLine _).bind fun _ => restores_pure _
  | var name initializer =>
    exact (ih (.evaluateOption initializer)).bind fun _ =>
      (restores_defineHere _ _).bind fun _ => restores_pure _
  | block body =>
    exact restores_get.bind fun _ => (restores_onStore _).bind fun inner =>
      (ih (.executeAll body)).inFrame inner
  | ifThen condition thenBranch =>
    refine (ih (.evaluate condition)).bind fun value => ?_
    split
    · exact ih (.execute thenBranch)
    · exact restores_pure _
  | ifElse condition thenBranch elseBranch =>
    refine (ih (.evaluate condition)).bind fun value => ?_
    split
    · exact ih (.execute thenBranch)
    · exact ih (.execute elseBranch)
  | loop condition body => exact ih (.executeLoop condition body)
  | function routine => exact (restores_declareFunction routine).bind fun _ => restores_pure _
  | ret keyword value => exact (ih (.evaluateOption value)).bind fun _ => restores_pure _
  | classDecl name methods =>
    exact (restores_declareClass name methods).bind fun _ => restores_pure _

theorem restores_evaluate (ih : ∀ task : Task, Restores (task.run fuel)) (e : Expr) :
    Restores (evaluate (fuel + 1) e) := by
  cases e with
  | literal id constant => exact restores_pure _
  | group id inner => exact ih (.evaluate inner)
  | unary id operator operand =>
    exact (ih (.evaluate operand)).bind fun _ => restores_ofExcept _ _
  | binary id left operator right =>
    exact (ih (.evaluate left)).bind fun _ => (ih (.evaluate right)).bind fun _ =>
      restores_ofExcept _ _
  | logical id left operator right =>
    refine (ih (.evaluate left)).bind fun value => ?_
    split
    · exact restores_pure _
    · exact ih (.evaluate right)
  | read id name => exact restores_readVariable id name
  | assign id name value =>
    exact (ih (.evaluate value)).bind fun _ => (restores_writeVariable id name _).bind fun _ =>
      restores_pure _
  | call id callee paren arguments =>
    exact (ih (.evaluate callee)).bind fun value =>
      (ih (.evaluateAll arguments)).bind fun values => ih (.call value paren values)
  | property id object name =>
    refine (ih (.evaluate object)).bind fun value => ?_
    cases value with
    | object target => exact restores_readProperty target name
    | nil | bool | number | text | host | function | classRef => exact restores_raise _ _
  | setProperty id object name value =>
    refine (ih (.evaluate object)).bind fun target => ?_
    cases target with
    | object target =>
      exact (ih (.evaluate value)).bind fun _ => (restores_onStore _).bind fun _ => restores_pure _
    | nil | bool | number | text | host | function | classRef => exact restores_raise _ _
  | self id keyword => exact restores_readVariable id keyword

theorem restores_call (ih : ∀ task : Task, Restores (task.run fuel)) (value : Value) (paren : Token)
    (arguments : List Value) : Restores (ScriptLang.call (fuel + 1) value paren arguments) := by
  refine restores_get.bind fun m => ?_
  cases m.store.callee? value with
  | none => exact restores_raise _ _
  | some callee =>
    dsimp only
    split
    · exact restores_raise _ _
    · refine restores_get.bind fun m' => ?_
      split
      · exact restores_raise _ _
      · exact (ih (.enter callee paren arguments)).asCall

theorem restores_enter (ih : ∀ task : Task, Restores (task.run fuel)) (callee : Store.Callee)
    (paren : Token) (arguments : List Value) :
    Restores (ScriptLang.enter (fuel + 1) callee paren arguments) := by
  cases callee with
  | host provided => exact restores_callHost provided paren arguments
  | function closure => exact ih (.invoke closure arguments)
  | classRef id info =>
    refine (restores_onStore _).bind fun object => ?_
    cases info.methods.get? initializerName with
    | some method =>
      exact (restores_onStore _).bind fun bound => (ih (.invoke bound arguments)).bind fun _ =>
        restores_pure _
    | none => exact restores_pure _

/-- Every task leaves the current frame and the number of calls in progress as they were. -/
theorem restores (fuel : Nat) (task : Task) : Restores (task.run fuel) := by
  induction fuel generalizing task with
  | zero =>
    rw [Task.run_zero]
    exact restores_throw _
  | succ fuel ih =>
    cases task with
    | execute s => exact restores_execute ih s
    | executeAll body =>
      cases body with
      | nil => exact restores_pure _
      | cons s rest =>
        refine (ih (.execute s)).bind fun flow => ?_
        cases flow with
        | normal => exact ih (.executeAll rest)
        | returned value => exact restores_pure _
    | executeLoop condition body =>
      refine (ih (.evaluate condition)).bind fun value => ?_
      split
      · refine (ih (.execute body)).bind fun flow => ?_
        cases flow with
        | normal => exact ih (.executeLoop condition body)
        | returned value => exact restores_pure _
      · exact restores_pure _
    | evaluate e => exact restores_evaluate ih e
    | evaluateOption e =>
      cases e with
      | none => exact restores_pure _
      | some e => exact ih (.evaluate e)
    | evaluateAll es =>
      cases es with
      | nil => exact restores_pure _
      | cons e rest =>
        exact (ih (.evaluate e)).bind fun _ => (ih (.evaluateAll rest)).bind fun _ =>
          restores_pure _
    | call value paren arguments => exact restores_call ih value paren arguments
    | enter callee paren arguments => exact restores_enter ih callee paren arguments
    | invoke closure arguments =>
      exact (restores_onStore _).bind fun frame =>
        ((ih (.executeAll closure.routine.body)).inFrame frame).bind fun flow =>
          restores_resultOfCall closure flow

theorem restores_executeScript (fuel : Nat) (statements : List Stmt) :
    Restores (executeScript fuel statements) := by
  induction statements with
  | nil => exact restores_pure _
  | cons s rest ih => exact (restores fuel (.execute s)).bind fun _ => ih

theorem restores_interpret (fuel : Nat) (statements : List Stmt) :
    Restores (interpret fuel statements) := by
  intro m
  have hscript := restores_executeScript fuel statements
  unfold Exec.left interpret
  cases hrun : executeScript fuel statements m with
  | ok _ m₁ => exact (hscript.ok hrun).trans (restores_flush m₁)
  | error halt m₁ =>
    cases halt with
    | outOfFuel => exact hscript.error hrun
    | fault fault =>
      dsimp only
      cases hflush : flush m₁ with
      | ok _ m₂ => exact (hscript.error hrun).trans (restores_flush.ok hflush)
      | error halt m₂ => exact (hscript.error hrun).trans (restores_flush.error hflush)

end Tasks

/-! ## 4. The calls in progress -/

/-- Where a task is done that another one asks for: on the same machine but for the store, the
output and the clock; as one more call; or in a new frame, inside the current one for a block and
inside the frame of the closure for a body. -/
inductive Moves : Task → Machine → Task → Machine → Prop where
  | stays {task m task' m'} : Restored m m' → Moves task m task' m'
  | call {value paren arguments callee m} : m.depth < maxDepth →
      Moves (.call value paren arguments) m (.enter callee paren arguments)
        { m with depth := m.depth + 1 }
  | block {body m} : Moves (.execute (.block body)) m (.executeAll body) (m.inNewFrame m.frame)
  | body {closure arguments m} : Moves (.invoke closure arguments) m
      (.executeAll closure.routine.body) (m.forBody closure arguments)

section Depth

variable {fuel : Nat} {task task' : Task} {m m' : Machine} {halt : Halt}

theorem Asks.moves (h : Asks fuel task m task' m') : Moves task m task' m' := by
  cases h with
  | ifThen hcondition | ifElseThen hcondition | ifElseElse hcondition | round hcondition =>
    exact .stays ((restores fuel (.evaluate _)).ok hcondition)
  | next hfirst => exact .stays ((restores fuel (.execute _)).ok hfirst)
  | again hcondition _ hbody =>
    have hbefore := (restores fuel (.evaluate _)).ok hcondition
    exact .stays (hbefore.trans ((restores fuel (.execute _)).ok hbody))
  | binaryRight hleft | logicalRight hleft | arguments hleft | fieldValue hleft | tail hleft =>
    exact .stays ((restores fuel (.evaluate _)).ok hleft)
  | call hcallee harguments =>
    have hbefore := (restores fuel (.evaluate _)).ok hcallee
    exact .stays (hbefore.trans ((restores fuel (.evaluateAll _)).ok harguments))
  | enter _ _ hroom => exact .call (Nat.lt_of_not_le hroom)
  | classInitializer => exact .stays (.of_store m _)
  | block => exact .block
  | body => exact .body
  | _ => exact .stays (.refl m)

/-- A task that another one asks for starts with at most `maxDepth` calls in progress: only a
call that was let in adds one. -/
theorem Asks.depth_le (h : Asks fuel task m task' m') (hdepth : m.depth ≤ maxDepth) :
    m'.depth ≤ maxDepth := by
  cases h.moves with
  | stays hrestored => exact hrestored.depth_eq ▸ hdepth
  | call hroom => exact hroom
  | block | body => exact hdepth

theorem Visits.depth_le (h : Visits fuel task m task' m') (hdepth : m.depth ≤ maxDepth) :
    m'.depth ≤ maxDepth := by
  induction h with
  | here => exact hdepth
  | step hask _ ih => exact ih (hask.depth_le hdepth)

theorem ScriptVisits.depth_le {statements : List Stmt} (h : ScriptVisits fuel statements m task m')
    (hdepth : m.depth ≤ maxDepth) : m'.depth ≤ maxDepth := by
  induction h with
  | now hvisits => exact hvisits.depth_le hdepth
  | later hfirst _ ih => exact ih ((restores fuel (.execute _)).ok hfirst |>.depth_eq ▸ hdepth)

/-- Something that takes as many arguments as there are is called while `maxDepth` calls are in
progress. -/
def Overflows (value : Value) (arguments : List Value) (m : Machine) : Prop :=
  ∃ callee, m.store.callee? value = some callee ∧ arguments.length = callee.arity ∧
    m.depth = maxDepth

/-- Looking at the machine does not change it. -/
theorem get_bind (f : Machine → Exec α) (m : Machine) : (get >>= f) m = f m m := rfl

/-- A call that would be one too many fails at once. -/
theorem Overflows.fails {value : Value} {arguments : List Value} (h : Overflows value arguments m)
    (fuel : Nat) (paren : Token) :
    ScriptLang.call (fuel + 1) value paren arguments m =
      .error (.fault (.runtime paren.line .stackOverflow)) m := by
  obtain ⟨callee, hcallee, harity, hdepth⟩ := h
  rw [ScriptLang.call]
  rw [get_bind, hcallee]
  dsimp only
  rw [if_neg (by simp [harity]), get_bind, if_pos (Nat.le_of_eq hdepth.symm)]
  rfl

/-- The fault of too many calls is raised only by a call that would be one too many. -/
theorem Raises.overflows (h : Raises task m halt) (hkind : OfKind .stackOverflow halt)
    (hdepth : m.depth ≤ maxDepth) :
    ∃ value paren arguments, task = .call value paren arguments ∧ Overflows value arguments m ∧
      halt = .fault (.runtime paren.line .stackOverflow) := by
  rcases h.sorted with ⟨name, -, rfl⟩ |
      ⟨value, paren, arguments, callee, rfl, hcallee, harity, hfull, rfl⟩ |
    ⟨-, hoverflow⟩
  · rw [undefinedAt, ofKind_iff] at hkind
    cases hkind
  · exact ⟨value, paren, arguments, rfl,
      ⟨callee, hcallee, harity, Nat.le_antisymm hdepth hfull⟩, rfl⟩
  · exact absurd hkind hoverflow

/-- A script that starts with room for calls fails for want of room only because it comes to a call
that would be one too many. -/
theorem overflows_of_fails {statements : List Stmt} {line : Nat} {cause : RuntimeCause}
    (hdepth : m.depth ≤ maxDepth) (hkind : cause.kind = .stackOverflow)
    (h : Fails (executeScript fuel statements) m (.fault (.runtime line cause))) :
    ∃ value paren arguments m', ScriptVisits fuel statements m (.call value paren arguments) m' ∧
      Overflows value arguments m' ∧ paren.line = line := by
  obtain ⟨task, m', hvisits, hraises⟩ := raised_of_script Halt.noConfusion h
  obtain ⟨value, paren, arguments, rfl, hoverflows, heq⟩ :=
    hraises.overflows (ofKind_iff.mpr hkind) (hvisits.depth_le hdepth)
  cases heq
  exact ⟨value, paren, arguments, m', hvisits, hoverflows, rfl⟩

/-- A script that comes to a call that would be one too many fails for want of room, if it has one
unit of fuel for the call. -/
theorem ScriptVisits.overflows {statements : List Stmt} {value : Value} {paren : Token}
    {arguments : List Value} (h : ScriptVisits fuel statements m (.call value paren arguments) m')
    (hoverflows : Overflows value arguments m') :
    Fails (executeScript (fuel + 1) statements) m
      (.fault (.runtime paren.line .stackOverflow)) :=
  h.fails_succ fun rest => ⟨m', hoverflows.fails rest paren⟩

end Depth

end ScriptLang
