/-
ScriptLang.Proofs.Machine.Tracing — faults traced back to where they were
raised.

A task may fail because one that it asks for does, or on its own. `Raises` has
one rule for each way in which a task fails on its own, after everything it
asked for has ended well. Every run that ends with a fault has visited a task
that raised it (`traced`), so whatever is to be known about the faults of runs
is known from these rules.

The fault of a name that means no variable is raised by four tasks only
(`Stumbles`). And no task raises a static fault or halts by itself for want of
fuel (`Raises.dynamic`).
-/
import ScriptLang.Proofs.Machine.Variables

namespace ScriptLang

open Exec

/-! ## 1. Raising a fault -/

/-- A task fails on its own: what it has asked for before has ended well. -/
inductive Raises : Task → Machine → Halt → Prop where
  | print {fuel value m shown m' halt} : evaluate fuel value m = .ok shown m' →
      Fails (printLine shown) m' halt → Raises (.execute (.print value)) m halt
  | classDecl {name methods m halt} : Fails (declareClass name methods) m halt →
      Raises (.execute (.classDecl name methods)) m halt
  | unary {fuel id operator operand m value m' cause} : evaluate fuel operand m = .ok value m' →
      Operator.unary operator value = .error cause →
      Raises (.evaluate (.unary id operator operand)) m (.fault (.runtime operator.line cause))
  | binary {fuel id left operator right m value m' value' m'' cause} :
      evaluate fuel left m = .ok value m' → evaluate fuel right m' = .ok value' m'' →
      Operator.binary operator value value' = .error cause →
      Raises (.evaluate (.binary id left operator right)) m (.fault (.runtime operator.line cause))
  | read {id name m halt} : Fails (readVariable id name) m halt →
      Raises (.evaluate (.read id name)) m halt
  | self {id keyword m halt} : Fails (readVariable id keyword) m halt →
      Raises (.evaluate (.self id keyword)) m halt
  | assign {fuel id name value m assigned m' halt} : evaluate fuel value m = .ok assigned m' →
      Fails (writeVariable id name assigned) m' halt →
      Raises (.evaluate (.assign id name value)) m halt
  | property {fuel id object name m target m' halt} :
      evaluate fuel object m = .ok (.object target) m' → Fails (readProperty target name) m' halt →
      Raises (.evaluate (.property id object name)) m halt
  | noProperties {fuel id object name m value m'} : evaluate fuel object m = .ok value m' →
      (∀ target, value ≠ .object target) →
      Raises (.evaluate (.property id object name)) m (.fault (.runtime name.line .noProperties))
  | noFields {fuel id object name value m target m'} : evaluate fuel object m = .ok target m' →
      (∀ id, target ≠ .object id) →
      Raises (.evaluate (.setProperty id object name value)) m
        (.fault (.runtime name.line .noFields))
  | notCallable {value paren arguments m} : m.store.callee? value = none →
      Raises (.call value paren arguments) m (.fault (.runtime paren.line .notCallable))
  | arity {value paren arguments m callee} : m.store.callee? value = some callee →
      arguments.length ≠ callee.arity →
      Raises (.call value paren arguments) m
        (.fault (.runtime paren.line (.arity callee.arity arguments.length)))
  | overflow {value paren arguments m callee} : m.store.callee? value = some callee →
      arguments.length = callee.arity → maxDepth ≤ m.depth →
      Raises (.call value paren arguments) m (.fault (.runtime paren.line .stackOverflow))
  | host {provided paren arguments m halt} : Fails (callHost provided paren arguments) m halt →
      Raises (.enter (.host provided) paren arguments) m halt

/-- A task that is visited raises the fault with which a run ends. -/
def Blamed (fuel : Nat) (task : Task) (m : Machine) (halt : Halt) : Prop :=
  ∃ task' m', Visits fuel task m task' m' ∧ Raises task' m' halt

section Steps

variable {fuel : Nat} {task task' : Task} {m m' : Machine} {halt : Halt}

theorem Blamed.step (hask : Asks fuel task m task' m') (h : Blamed fuel task' m' halt) :
    Blamed (fuel + 1) task m halt := by
  obtain ⟨task'', m'', hvisits, hraises⟩ := h
  exact ⟨task'', m'', .step hask hvisits, hraises⟩

theorem Blamed.here (h : Raises task m halt) : Blamed fuel task m halt :=
  ⟨task, m, .here, h⟩

theorem eq_of_fails_raise {α : Type} {token : Token} {cause : RuntimeCause}
    (h : Fails (raise token cause : Exec α) m halt) :
    halt = .fault (.runtime token.line cause) := by
  obtain ⟨m', h⟩ := h
  cases h
  rfl

theorem eq_of_fails_ofExcept {α : Type} {token : Token} {result : Except RuntimeCause α}
    (h : Fails (ofExcept token result) m halt) :
    ∃ cause, result = .error cause ∧ halt = .fault (.runtime token.line cause) := by
  cases result with
  | ok value => exact absurd h (not_fails_pure value)
  | error cause => exact ⟨cause, rfl, eq_of_fails_raise h⟩

theorem not_fails_onStore {α : Type} (change : Store → α × Store) :
    ¬ Fails (onStore change) m halt := by
  rintro ⟨m', h⟩
  cases h

theorem not_fails_resultOfCall (closure : Closure) (flow : Flow) :
    ¬ Fails (resultOfCall closure flow) m halt := by
  rintro ⟨m', h⟩
  unfold resultOfCall at h
  split at h
  · cases h
  · cases flow <;> cases h

end Steps

/-! ## 2. Tracing a fault -/

section Tracing

variable {fuel : Nat} {halt : Halt} {m : Machine}

/-- A task halts for a reason: one that it asks for does, or it raises the reason itself. -/
inductive Halts (fuel : Nat) (task : Task) (m : Machine) (halt : Halt) : Prop where
  | asked {task' m'} : Asks fuel task m task' m' → Fails (task'.run fuel) m' halt →
      Halts fuel task m halt
  | raised : Raises task m halt → Halts fuel task m halt

namespace Halts

theorem of_expression (e : Expr)
    (h : Fails (evaluate (fuel + 1) e) m halt) : Halts fuel (.evaluate e) m halt := by
  cases e with
  | literal id constant => exact absurd h (not_fails_pure _)
  | group id inner => exact .asked .group h
  | unary id operator operand =>
    rw [evaluate] at h
    rcases h.bind with h | ⟨value, m₁, hoperand, h⟩
    · exact .asked .operand h
    · obtain ⟨cause, hcause, rfl⟩ := eq_of_fails_ofExcept h
      exact .raised (.unary hoperand hcause)
  | binary id left operator right =>
    rw [evaluate] at h
    rcases h.bind with h | ⟨value, m₁, hleft, h⟩
    · exact .asked .binaryLeft h
    rcases h.bind with h | ⟨value', m₂, hright, h⟩
    · exact .asked (.binaryRight hleft) h
    · obtain ⟨cause, hcause, rfl⟩ := eq_of_fails_ofExcept h
      exact .raised (.binary hleft hright hcause)
  | logical id left operator right =>
    rw [evaluate] at h
    rcases h.bind with h | ⟨value, m₁, hleft, h⟩
    · exact .asked .logicalLeft h
    split at h
    · exact absurd h (not_fails_pure _)
    · rename_i hdecides
      exact .asked (.logicalRight hleft (by simpa using hdecides)) h
  | read id name => exact .raised (.read h)
  | assign id name value =>
    rw [evaluate] at h
    rcases h.bind with h | ⟨assigned, m₁, hvalue, h⟩
    · exact .asked .assigned h
    rcases h.bind with h | ⟨_, m₂, -, h⟩
    · exact .raised (.assign hvalue h)
    · exact absurd h (not_fails_pure _)
  | call id callee paren arguments =>
    rw [evaluate] at h
    rcases h.bind with h | ⟨value, m₁, hcallee, h⟩
    · exact .asked .callee h
    rcases h.bind with h | ⟨values, m₂, harguments, h⟩
    · exact .asked (.arguments hcallee) h
    · exact .asked (.call hcallee harguments) h
  | property id object name =>
    rw [evaluate] at h
    rcases h.bind with h | ⟨value, m₁, hobject, h⟩
    · exact .asked .propertyObject h
    cases value with
    | object target => exact .raised (.property hobject h)
    | nil | bool | number | text | host | function | classRef =>
      rw [eq_of_fails_raise h]
      exact .raised (.noProperties hobject (by simp))
  | setProperty id object name value =>
    rw [evaluate] at h
    rcases h.bind with h | ⟨target, m₁, hobject, h⟩
    · exact .asked .fieldObject h
    cases target with
    | object target =>
      rcases h.bind with h | ⟨assigned, m₂, -, h⟩
      · exact .asked (.fieldValue hobject) h
      rcases h.bind with h | ⟨_, m₃, -, h⟩
      · exact absurd h (not_fails_onStore _)
      · exact absurd h (not_fails_pure _)
    | nil | bool | number | text | host | function | classRef =>
      rw [eq_of_fails_raise h]
      exact .raised (.noFields hobject (by simp))
  | self id keyword => exact .raised (.self h)

theorem of_option (e : Option Expr)
    (h : Fails (evaluateOption (fuel + 1) e) m halt) :
    Halts fuel (.evaluateOption e) m halt := by
  cases e with
  | none => exact absurd h (not_fails_pure _)
  | some e => exact .asked .present h

theorem of_expressions (es : List Expr)
    (h : Fails (evaluateAll (fuel + 1) es) m halt) :
    Halts fuel (.evaluateAll es) m halt := by
  cases es with
  | nil => exact absurd h (not_fails_pure _)
  | cons e rest =>
    rw [evaluateAll] at h
    rcases h.bind with h | ⟨value, m₁, hfirst, h⟩
    · exact .asked .head h
    rcases h.bind with h | ⟨values, m₂, -, h⟩
    · exact .asked (.tail hfirst) h
    · exact absurd h (not_fails_pure _)

theorem of_call (value : Value) (paren : Token) (arguments : List Value)
    (h : Fails (ScriptLang.call (fuel + 1) value paren arguments) m halt) :
    Halts fuel (.call value paren arguments) m halt := by
  rw [ScriptLang.call] at h
  rcases h.bind with ⟨m', h⟩ | ⟨_, _, hget, h⟩
  · cases h
  cases hget
  split at h
  · rename_i hcallee
    rw [eq_of_fails_raise h]
    exact .raised (.notCallable hcallee)
  · rename_i callee hcallee
    split at h
    · rename_i harity
      rw [eq_of_fails_raise h]
      exact .raised (.arity hcallee harity)
    · rename_i harity
      have harity := Decidable.not_not.mp harity
      rcases h.bind with ⟨m', h⟩ | ⟨_, _, hget, h⟩
      · cases h
      cases hget
      split at h
      · rename_i hdepth
        rw [eq_of_fails_raise h]
        exact .raised (.overflow hcallee harity hdepth)
      · rename_i hdepth
        exact .asked (.enter hcallee harity hdepth) h.asCall

theorem of_enter (callee : Store.Callee) (paren : Token)
    (arguments : List Value) (h : Fails (ScriptLang.enter (fuel + 1) callee paren arguments) m halt) :
    Halts fuel (.enter callee paren arguments) m halt := by
  cases callee with
  | host provided => exact .raised (.host h)
  | function closure => exact .asked .function h
  | classRef id info =>
    rw [ScriptLang.enter] at h
    rcases h.bind with h | ⟨object, m₁, hobject, h⟩
    · exact absurd h (not_fails_onStore _)
    cases hobject
    split at h
    · rename_i method hmethod
      rcases h.bind with h | ⟨bound, m₂, hbound, h⟩
      · exact absurd h (not_fails_onStore _)
      cases hbound
      rcases h.bind with h | ⟨_, m₃, -, h⟩
      · exact .asked (.classInitializer hmethod rfl rfl) h
      · exact absurd h (not_fails_pure _)
    · exact absurd h (not_fails_pure _)

theorem of_invoke (closure : Closure) (arguments : List Value)
    (h : Fails (ScriptLang.invoke (fuel + 1) closure arguments) m halt) :
    Halts fuel (.invoke closure arguments) m halt := by
  rw [ScriptLang.invoke] at h
  rcases h.bind with h | ⟨frame, m₁, hframe, h⟩
  · exact absurd h (not_fails_onStore _)
  cases hframe
  rcases h.bind with h | ⟨flow, m₂, -, h⟩
  · exact .asked .body h.inFrame
  · exact absurd h (not_fails_resultOfCall closure flow)

theorem of_statement (s : Stmt)
    (h : Fails (execute (fuel + 1) s) m halt) : Halts fuel (.execute s) m halt := by
  cases s with
  | expression value =>
    rw [execute] at h
    rcases h.bind with h | ⟨_, m₁, -, h⟩
    · exact .asked .expression h
    · exact absurd h (not_fails_pure _)
  | print value =>
    rw [execute] at h
    rcases h.bind with h | ⟨shown, m₁, hvalue, h⟩
    · exact .asked .print h
    rcases h.bind with h | ⟨_, m₂, -, h⟩
    · exact .raised (.print hvalue h)
    · exact absurd h (not_fails_pure _)
  | var name initializer =>
    rw [execute] at h
    rcases h.bind with h | ⟨_, m₁, -, h⟩
    · exact .asked .initializer h
    rcases h.bind with ⟨m', h⟩ | ⟨_, m₂, -, h⟩
    · cases h
    · exact absurd h (not_fails_pure _)
  | block body =>
    rw [execute] at h
    rcases h.bind with ⟨m', h⟩ | ⟨_, _, hget, h⟩
    · cases h
    cases hget
    rcases h.bind with h | ⟨inner, m₁, hinner, h⟩
    · exact absurd h (not_fails_onStore _)
    cases hinner
    exact .asked .block h.inFrame
  | ifThen condition thenBranch =>
    rw [execute] at h
    rcases h.bind with h | ⟨value, m₁, hcondition, h⟩
    · exact .asked .ifThenCondition h
    split at h
    · rename_i htruthy
      exact .asked (.ifThen hcondition htruthy) h
    · exact absurd h (not_fails_pure _)
  | ifElse condition thenBranch elseBranch =>
    rw [execute] at h
    rcases h.bind with h | ⟨value, m₁, hcondition, h⟩
    · exact .asked .ifElseCondition h
    split at h
    · rename_i htruthy
      exact .asked (.ifElseThen hcondition htruthy) h
    · rename_i htruthy
      exact .asked (.ifElseElse hcondition (by simpa using htruthy)) h
  | loop condition body => exact .asked .loop h
  | function routine =>
    rw [execute] at h
    rcases h.bind with ⟨m', h⟩ | ⟨_, m₁, -, h⟩
    · cases h
    · exact absurd h (not_fails_pure _)
  | ret keyword value =>
    rw [execute] at h
    rcases h.bind with h | ⟨_, m₁, -, h⟩
    · exact .asked .ret h
    · exact absurd h (not_fails_pure _)
  | classDecl name methods =>
    rw [execute] at h
    rcases h.bind with h | ⟨_, m₁, -, h⟩
    · exact .raised (.classDecl h)
    · exact absurd h (not_fails_pure _)

theorem of_statements (body : List Stmt)
    (h : Fails (executeAll (fuel + 1) body) m halt) : Halts fuel (.executeAll body) m halt := by
  cases body with
  | nil => exact absurd h (not_fails_pure _)
  | cons s rest =>
    rw [executeAll] at h
    rcases h.bind with h | ⟨flow, m₁, hfirst, h⟩
    · exact .asked .first h
    cases flow with
    | normal => exact .asked (.next hfirst) h
    | returned value => exact absurd h (not_fails_pure _)

theorem of_loop (condition : Expr) (body : Stmt)
    (h : Fails (executeLoop (fuel + 1) condition body) m halt) :
    Halts fuel (.executeLoop condition body) m halt := by
  rw [executeLoop] at h
  rcases h.bind with h | ⟨value, m₁, hcondition, h⟩
  · exact .asked .loopCondition h
  split at h
  · rename_i htruthy
    rcases h.bind with h | ⟨flow, m₂, hbody, h⟩
    · exact .asked (.round hcondition htruthy) h
    cases flow with
    | normal => exact .asked (.again hcondition htruthy hbody) h
    | returned value => exact absurd h (not_fails_pure _)
  · exact absurd h (not_fails_pure _)

end Halts

/-- With no fuel a task halts for want of it. -/
theorem Task.run_zero (task : Task) : task.run 0 = throw .outOfFuel := by
  cases task <;> rfl

/-- A task that fails, with some fuel, halts because of another one or raises the reason. -/
theorem Fails.halts {task : Task} (h : Fails (task.run (fuel + 1)) m halt) :
    Halts fuel task m halt := by
  cases task with
  | execute s => exact .of_statement s h
  | executeAll body => exact .of_statements body h
  | executeLoop condition body => exact .of_loop condition body h
  | evaluate e => exact .of_expression e h
  | evaluateOption e => exact .of_option e h
  | evaluateAll es => exact .of_expressions es h
  | call value paren arguments => exact .of_call value paren arguments h
  | enter callee paren arguments => exact .of_enter callee paren arguments h
  | invoke closure arguments => exact .of_invoke closure arguments h

/-- Whatever ends with a fault has visited what raised it. -/
theorem traced (hfuel : halt ≠ .outOfFuel) {fuel : Nat} {task : Task} {m : Machine}
    (h : Fails (task.run fuel) m halt) : Blamed fuel task m halt := by
  induction fuel generalizing task m with
  | zero =>
    obtain ⟨m', h⟩ := h
    rw [Task.run_zero] at h
    cases h
    exact absurd rfl hfuel
  | succ fuel ih =>
    cases h.halts with
    | asked hask hfails => exact .step hask (ih hfails)
    | raised hraises => exact .here hraises

/-- A script that ends with a fault has visited what raised it. -/
theorem raised_of_script (hfuel : halt ≠ .outOfFuel) {statements : List Stmt}
    (h : Fails (executeScript fuel statements) m halt) :
    ∃ task m', ScriptVisits fuel statements m task m' ∧ Raises task m' halt := by
  induction statements generalizing m with
  | nil => exact absurd h (not_fails_pure _)
  | cons s rest ih =>
    rw [executeScript] at h
    rcases h.bind with h | ⟨flow, m₁, hfirst, h⟩
    · have hfails : Fails (Task.run fuel (.execute s)) m halt := h
      obtain ⟨task, m', hvisits, hraises⟩ := traced hfuel hfails
      exact ⟨task, m', .now hvisits, hraises⟩
    · obtain ⟨task, m', hvisits, hraises⟩ := ih h
      exact ⟨task, m', .later hfirst hvisits, hraises⟩

end Tracing

/-! ## 3. The kinds of faults -/

section Kinds

variable {m : Machine} {halt : Halt} {kind : RuntimeKind}

/-- A reason to halt is a runtime fault of a kind. -/
def OfKind (kind : RuntimeKind) (halt : Halt) : Prop :=
  ∃ line cause, halt = .fault (.runtime line cause) ∧ cause.kind = kind

theorem OfKind.ne_outOfFuel (h : OfKind kind halt) : halt ≠ .outOfFuel := by
  obtain ⟨line, cause, rfl, -⟩ := h
  simp

theorem ofKind_iff {line : Nat} {cause : RuntimeCause} :
    OfKind kind (.fault (.runtime line cause)) ↔ cause.kind = kind := by
  constructor
  · rintro ⟨line', cause', heq, hkind⟩
    cases heq
    exact hkind
  · exact fun hkind => ⟨line, cause, rfl, hkind⟩

/-- Operators fail because of the types of their operands. -/
theorem kind_unary {operator : Token} {operand : Value} {cause : RuntimeCause}
    (h : Operator.unary operator operand = .error cause) : cause.kind = .type := by
  unfold Operator.unary at h
  split at h
  · cases h
  · split at h <;> cases h
    rfl
  · cases h
    rfl

theorem kind_onNumbers {operation : Float → Float → Value} {left right : Value}
    {cause : RuntimeCause} (h : Operator.onNumbers operation left right = .error cause) :
    cause.kind = .type := by
  unfold Operator.onNumbers at h
  split at h <;> cases h
  rfl

theorem kind_binary {operator : Token} {left right : Value} {cause : RuntimeCause}
    (h : Operator.binary operator left right = .error cause) : cause.kind = .type := by
  unfold Operator.binary at h
  split at h
  · unfold Operator.add at h
    split at h <;> cases h
    rfl
  · exact kind_onNumbers h
  · exact kind_onNumbers h
  · exact kind_onNumbers h
  · exact kind_onNumbers h
  · exact kind_onNumbers h
  · exact kind_onNumbers h
  · exact kind_onNumbers h
  · cases h
  · cases h
  · cases h
    rfl

/-- A fault of the output is no runtime fault. -/
theorem not_ofKind_of_printLine {value : Value} (h : Fails (printLine value) m halt) :
    ¬ OfKind kind halt := by
  rintro ⟨line, cause, rfl, -⟩
  obtain ⟨m', h⟩ := h
  unfold printLine at h
  dsimp only at h
  split at h <;> cases h

theorem eq_native_of_callHost {provided : HostFunction} {paren : Token} {arguments : List Value}
    (h : Fails (callHost provided paren arguments) m halt) :
    ∃ message, halt = .fault (.runtime paren.line (.described .native message)) := by
  obtain ⟨m', h⟩ := h
  unfold callHost at h
  dsimp only at h
  split at h
  · cases h
  · exact ⟨_, eq_of_fails_raise ⟨m', h⟩⟩

theorem eq_undefinedProperty_of_readProperty {object : Nat} {name : Token}
    (h : Fails (readProperty object name) m halt) :
    halt = .fault (.runtime name.line (.undefinedProperty name.lexeme)) := by
  obtain ⟨m', h⟩ := h
  unfold readProperty at h
  split at h
  · cases h
  · split at h
    · exact absurd ⟨m', h⟩ (not_fails_onStore _)
    · exact eq_of_fails_raise ⟨m', h⟩

end Kinds

/-! ## 4. Undefined variables -/

/-- A task finds on its own that a name means no variable. -/
inductive Stumbles : Task → Machine → Token → Prop where
  | read {id name m} : Fails (readVariable id name) m (undefinedAt name) →
      Stumbles (.evaluate (.read id name)) m name
  | self {id keyword m} : Fails (readVariable id keyword) m (undefinedAt keyword) →
      Stumbles (.evaluate (.self id keyword)) m keyword
  | assign {fuel id name value m assigned m'} : evaluate fuel value m = .ok assigned m' →
      Fails (writeVariable id name assigned) m' (undefinedAt name) →
      Stumbles (.evaluate (.assign id name value)) m name
  | classDecl {name methods m} : Fails (declareClass name methods) m (undefinedAt name) →
      Stumbles (.execute (.classDecl name methods)) m name

section Undefined

variable {m : Machine} {halt : Halt}

/-- Declaring a class fails only because its name means no variable. -/
theorem eq_undefinedAt_of_declareClass {name : Token} {methods : List Routine}
    (h : Fails (declareClass name methods) m halt) : halt = undefinedAt name := by
  unfold declareClass at h
  rcases h.bind with ⟨m', h⟩ | ⟨_, m₁, -, h⟩
  · cases h
  rcases h.bind with ⟨m', h⟩ | ⟨_, m₂, -, h⟩
  · cases h
  rcases h.bind with h | ⟨_, m₃, -, h⟩
  · exact absurd h (not_fails_onStore _)
  rcases h.bind with ⟨m', h⟩ | ⟨_, m₄, -, h⟩
  · cases h
  split at h
  · exact absurd h (not_fails_onStore _)
  · obtain ⟨m', h⟩ := h
    cases h
    rfl

/-- What raises a fault has stumbled over a name, or it is a call for which there is no room, or
the fault is of neither of these kinds. -/
theorem Raises.sorted {task : Task} (h : Raises task m halt) :
    (∃ name, Stumbles task m name ∧ halt = undefinedAt name) ∨
      (∃ value paren arguments callee, task = .call value paren arguments ∧
        m.store.callee? value = some callee ∧ arguments.length = callee.arity ∧
        maxDepth ≤ m.depth ∧ halt = .fault (.runtime paren.line .stackOverflow)) ∨
      ¬ OfKind .undefinedVariable halt ∧ ¬ OfKind .stackOverflow halt := by
  cases h with
  | read h =>
    obtain rfl := eq_undefinedAt_of_readVariable h
    exact .inl ⟨_, .read h, rfl⟩
  | self h =>
    obtain rfl := eq_undefinedAt_of_readVariable h
    exact .inl ⟨_, .self h, rfl⟩
  | assign hvalue h =>
    obtain rfl := eq_undefinedAt_of_writeVariable h
    exact .inl ⟨_, .assign hvalue h, rfl⟩
  | classDecl h =>
    obtain rfl := eq_undefinedAt_of_declareClass h
    exact .inl ⟨_, .classDecl h, rfl⟩
  | overflow hcallee harity hdepth =>
    exact .inr (.inl ⟨_, _, _, _, rfl, hcallee, harity, hdepth, rfl⟩)
  | print _ h => exact .inr (.inr ⟨not_ofKind_of_printLine h, not_ofKind_of_printLine h⟩)
  | unary _ h => exact .inr (.inr (by simp [ofKind_iff, kind_unary h]))
  | binary _ _ h => exact .inr (.inr (by simp [ofKind_iff, kind_binary h]))
  | property _ h =>
    rw [eq_undefinedProperty_of_readProperty h]
    exact .inr (.inr (by simp [ofKind_iff, RuntimeCause.kind]))
  | noProperties | noFields | notCallable | arity =>
    exact .inr (.inr (by simp [ofKind_iff, RuntimeCause.kind]))
  | host h =>
    obtain ⟨message, rfl⟩ := eq_native_of_callHost h
    exact .inr (.inr (by simp [ofKind_iff, RuntimeCause.kind]))

/-- What raises a fault about an undefined variable has stumbled over its name. -/
theorem Raises.stumbles {task : Task} (h : Raises task m halt)
    (hkind : OfKind .undefinedVariable halt) :
    ∃ name, Stumbles task m name ∧ halt = undefinedAt name := by
  rcases h.sorted with hstumbles | ⟨_, _, _, _, -, -, -, -, rfl⟩ | ⟨hundefined, -⟩
  · exact hstumbles
  · rw [ofKind_iff] at hkind
    cases hkind
  · exact absurd hkind hundefined

/-- A script that halts because of an undefined variable has visited what stumbled over it. -/
theorem traced_script (fuel : Nat) {statements : List Stmt}
    (hkind : OfKind .undefinedVariable halt) (h : Fails (executeScript fuel statements) m halt) :
    ∃ task m' name, ScriptVisits fuel statements m task m' ∧ Stumbles task m' name ∧
      halt = undefinedAt name := by
  obtain ⟨task, m', hvisits, hraises⟩ := raised_of_script hkind.ne_outOfFuel h
  obtain ⟨name, hstumbles, heq⟩ := hraises.stumbles hkind
  exact ⟨task, m', name, hvisits, hstumbles, heq⟩

end Undefined

/-! ## 5. Faults of running -/

/-- Printing fails only because of the output. -/
theorem eq_output_of_printLine {m : Machine} {halt : Halt} {value : Value}
    (h : Fails (printLine value) m halt) : ∃ message, halt = .fault (.output message) := by
  obtain ⟨m', h⟩ := h
  unfold printLine at h
  dsimp only at h
  split at h <;> cases h
  exact ⟨_, rfl⟩

/-- What is raised is a fault, and not a static one. -/
theorem Raises.dynamic {m : Machine} {halt : Halt} {task : Task} (h : Raises task m halt) :
    ∃ fault, halt = .fault fault ∧ fault.isStatic = false := by
  cases h with
  | print _ h =>
    obtain ⟨message, rfl⟩ := eq_output_of_printLine h
    exact ⟨_, rfl, rfl⟩
  | classDecl h => exact ⟨_, eq_undefinedAt_of_declareClass h, rfl⟩
  | read h => exact ⟨_, eq_undefinedAt_of_readVariable h, rfl⟩
  | self h => exact ⟨_, eq_undefinedAt_of_readVariable h, rfl⟩
  | assign _ h => exact ⟨_, eq_undefinedAt_of_writeVariable h, rfl⟩
  | property _ h => exact ⟨_, eq_undefinedProperty_of_readProperty h, rfl⟩
  | host h =>
    obtain ⟨message, rfl⟩ := eq_native_of_callHost h
    exact ⟨_, rfl, rfl⟩
  | unary | binary | noProperties | noFields | notCallable | arity | overflow =>
    exact ⟨_, rfl, rfl⟩

end ScriptLang
