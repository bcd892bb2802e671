/-
ScriptLang.Proofs.Machine.Visits — what the evaluator comes by during a run.

A task is a call of one of the functions of the evaluator, without its fuel.
`Asks` has one rule for each call that one function of the evaluator makes of
another: it says on which machine the call is made, given how the calls before
it ended. `Visits` is its closure, so it relates a task to everything that is
evaluated while the task is done, at any depth, whether the task then ends
well, fails or runs out of fuel.

Nothing catches a failure: a task fails as soon as one that it asks for does,
and for the same reason (`Asks.fails`).
-/
import ScriptLang.Machine.Evaluate

namespace ScriptLang

open Exec

/-! ## 1. Tasks -/

/-- Something the evaluator is asked to do. -/
inductive Task where
  | execute (statement : Stmt)
  | executeAll (body : List Stmt)
  | executeLoop (condition : Expr) (body : Stmt)
  | evaluate (e : Expr)
  | evaluateOption (e : Option Expr)
  | evaluateAll (es : List Expr)
  | call (value : Value) (paren : Token) (arguments : List Value)
  | enter (callee : Store.Callee) (paren : Token) (arguments : List Value)
  | invoke (closure : Closure) (arguments : List Value)

/-- What doing a task gives. -/
abbrev Task.Outcome : Task → Type
  | .execute _ => Flow
  | .executeAll _ => Flow
  | .executeLoop _ _ => Flow
  | .evaluateAll _ => List Value
  | _ => Value

/-- Does a task. -/
def Task.run (fuel : Nat) : (task : Task) → Exec task.Outcome
  | .execute statement => ScriptLang.execute fuel statement
  | .executeAll body => ScriptLang.executeAll fuel body
  | .executeLoop condition body => ScriptLang.executeLoop fuel condition body
  | .evaluate e => ScriptLang.evaluate fuel e
  | .evaluateOption e => ScriptLang.evaluateOption fuel e
  | .evaluateAll es => ScriptLang.evaluateAll fuel es
  | .call value paren arguments => ScriptLang.call fuel value paren arguments
  | .enter callee paren arguments => ScriptLang.enter fuel callee paren arguments
  | .invoke closure arguments => ScriptLang.invoke fuel closure arguments

/-- The machine in a new frame inside another frame. -/
def Machine.inNewFrame (m : Machine) (outer : Nat) : Machine :=
  { m with store := (m.store.addFrame (some outer)).2, frame := m.store.frames.size }

/-- The machine on which the body of a closure runs. -/
def Machine.forBody (m : Machine) (closure : Closure) (arguments : List Value) : Machine :=
  let inside := m.inNewFrame closure.frame
  let pairs := (closure.routine.parameters.map Token.lexeme).zip arguments
  { inside with store := inside.store.defineAll inside.frame pairs }

/-- Doing the first task, with one unit of fuel more, the evaluator does the second one. -/
inductive Asks (fuel : Nat) : Task → Machine → Task → Machine → Prop where
  | expression {value m} : Asks fuel (.execute (.expression value)) m (.evaluate value) m
  | print {value m} : Asks fuel (.execute (.print value)) m (.evaluate value) m
  | initializer {name initializer m} :
      Asks fuel (.execute (.var name initializer)) m (.evaluateOption initializer) m
  | block {body m} :
      Asks fuel (.execute (.block body)) m (.executeAll body) (m.inNewFrame m.frame)
  | ifThenCondition {condition thenBranch m} :
      Asks fuel (.execute (.ifThen condition thenBranch)) m (.evaluate condition) m
  | ifThen {condition thenBranch m value m'} :
      evaluate fuel condition m = .ok value m' → value.isTruthy = true →
      Asks fuel (.execute (.ifThen condition thenBranch)) m (.execute thenBranch) m'
  | ifElseCondition {condition thenBranch elseBranch m} :
      Asks fuel (.execute (.ifElse condition thenBranch elseBranch)) m (.evaluate condition) m
  | ifElseThen {condition thenBranch elseBranch m value m'} :
      evaluate fuel condition m = .ok value m' → value.isTruthy = true →
      Asks fuel (.execute (.ifElse condition thenBranch elseBranch)) m (.execute thenBranch) m'
  | ifElseElse {condition thenBranch elseBranch m value m'} :
      evaluate fuel condition m = .ok value m' → value.isTruthy = false →
      Asks fuel (.execute (.ifElse condition thenBranch elseBranch)) m (.execute elseBranch) m'
  | loop {condition body m} :
      Asks fuel (.execute (.loop condition body)) m (.executeLoop condition body) m
  | ret {keyword value m} : Asks fuel (.execute (.ret keyword value)) m (.evaluateOption value) m
  | first {s rest m} : Asks fuel (.executeAll (s :: rest)) m (.execute s) m
  | next {s rest m m'} : execute fuel s m = .ok .normal m' →
      Asks fuel (.executeAll (s :: rest)) m (.executeAll rest) m'
  | loopCondition {condition body m} :
      Asks fuel (.executeLoop condition body) m (.evaluate condition) m
  | round {condition body m value m'} :
      evaluate fuel condition m = .ok value m' → value.isTruthy = true →
      Asks fuel (.executeLoop condition body) m (.execute body) m'
  | again {condition body m value m' m''} :
      evaluate fuel condition m = .ok value m' → value.isTruthy = true →
      execute fuel body m' = .ok .normal m'' →
      Asks fuel (.executeLoop condition body) m (.executeLoop condition body) m''
  | group {id inner m} : Asks fuel (.evaluate (.group id inner)) m (.evaluate inner) m
  | operand {id operator operand m} :
      Asks fuel (.evaluate (.unary id operator operand)) m (.evaluate operand) m
  | binaryLeft {id left operator right m} :
      Asks fuel (.evaluate (.binary id left operator right)) m (.evaluate left) m
  | binaryRight {id left operator right m value m'} : evaluate fuel left m = .ok value m' →
      Asks fuel (.evaluate (.binary id left operator right)) m (.evaluate right) m'
  | logicalLeft {id left operator right m} :
      Asks fuel (.evaluate (.logical id left operator right)) m (.evaluate left) m
  | logicalRight {id left operator right m value m'} : evaluate fuel left m = .ok value m' →
      Operator.decides operator value = false →
      Asks fuel (.evaluate (.logical id left operator right)) m (.evaluate right) m'
  | assigned {id name value m} :
      Asks fuel (.evaluate (.assign id name value)) m (.evaluate value) m
  | callee {id callee paren arguments m} :
      Asks fuel (.evaluate (.call id callee paren arguments)) m (.evaluate callee) m
  | arguments {id callee paren arguments m value m'} : evaluate fuel callee m = .ok value m' →
      Asks fuel (.evaluate (.call id callee paren arguments)) m (.evaluateAll arguments) m'
  | call {id callee paren arguments m value m' values m''} :
      evaluate fuel callee m = .ok value m' → evaluateAll fuel arguments m' = .ok values m'' →
      Asks fuel (.evaluate (.call id callee paren arguments)) m (.call value paren values) m''
  | propertyObject {id object name m} :
      Asks fuel (.evaluate (.property id object name)) m (.evaluate object) m
  | fieldObject {id object name value m} :
      Asks fuel (.evaluate (.setProperty id object name value)) m (.evaluate object) m
  | fieldValue {id object name value m target m'} : evaluate fuel object m = .ok (.object target) m' →
      Asks fuel (.evaluate (.setProperty id object name value)) m (.evaluate value) m'
  | present {e m} : Asks fuel (.evaluateOption (some e)) m (.evaluate e) m
  | head {e rest m} : Asks fuel (.evaluateAll (e :: rest)) m (.evaluate e) m
  | tail {e rest m value m'} : evaluate fuel e m = .ok value m' →
      Asks fuel (.evaluateAll (e :: rest)) m (.evaluateAll rest) m'
  | enter {value paren arguments m callee} : m.store.callee? value = some callee →
      arguments.length = callee.arity → ¬ maxDepth ≤ m.depth →
      Asks fuel (.call value paren arguments) m (.enter callee paren arguments)
        { m with depth := m.depth + 1 }
  | function {closure paren arguments m} :
      Asks fuel (.enter (.function closure) paren arguments) m (.invoke closure arguments) m
  | classInitializer {classId info paren arguments m method object s bound s'} :
      info.methods.get? initializerName = some method →
      m.store.addObject classId = (object, s) → s.bindMethod method object = (bound, s') →
      Asks fuel (.enter (.classRef classId info) paren arguments) m (.invoke bound arguments)
        { m with store := s' }
  | body {closure arguments m} :
      Asks fuel (.invoke closure arguments) m (.executeAll closure.routine.body)
        (m.forBody closure arguments)

/-- Doing the first task, with the given fuel, the evaluator comes to do the second one. -/
inductive Visits : Nat → Task → Machine → Task → Machine → Prop where
  | here {fuel task m} : Visits fuel task m task m
  | step {fuel task m task' m' task'' m''} : Asks fuel task m task' m' →
      Visits fuel task' m' task'' m'' → Visits (fuel + 1) task m task'' m''

/-- Running the statements of a script, the evaluator comes to do a task. -/
inductive ScriptVisits (fuel : Nat) : List Stmt → Machine → Task → Machine → Prop where
  | now {s rest m task m'} : Visits fuel (.execute s) m task m' →
      ScriptVisits fuel (s :: rest) m task m'
  | later {s rest m flow m₁ task m'} : execute fuel s m = .ok flow m₁ →
      ScriptVisits fuel rest m₁ task m' → ScriptVisits fuel (s :: rest) m task m'

/-! ## 2. Failing -/

section Failing

variable {α β : Type} {m : Machine} {halt : Halt}

/-- Something ends early for a reason. -/
def Fails (x : Exec α) (m : Machine) (halt : Halt) : Prop :=
  ∃ m', x m = .error halt m'

theorem not_fails_pure (a : α) : ¬ Fails (pure a) m halt := by
  rintro ⟨m', h⟩
  exact absurd h (by simp [pure, EStateM.pure])

theorem Fails.bind {x : Exec α} {f : α → Exec β} (h : Fails (x >>= f) m halt) :
    Fails x m halt ∨ ∃ a m₁, x m = .ok a m₁ ∧ Fails (f a) m₁ halt := by
  obtain ⟨m', h⟩ := h
  change EStateM.bind x f m = _ at h
  unfold EStateM.bind at h
  cases hx : x m with
  | ok a m₁ =>
    rw [hx] at h
    exact .inr ⟨a, m₁, rfl, m', h⟩
  | error halt' m₁ =>
    rw [hx] at h
    cases h
    exact .inl ⟨m', hx⟩

/-- Failing in another frame or as one more call is failing. -/
theorem Fails.inFrame {frame : Nat} {body : Exec α} (h : Fails (inFrame frame body) m halt) :
    Fails body { m with frame := frame } halt := by
  obtain ⟨m', h⟩ := h
  unfold Exec.inFrame at h
  cases hbody : body { m with frame := frame } with
  | ok a m₁ => rw [hbody] at h; cases h
  | error halt' m₁ =>
    rw [hbody] at h
    cases h
    exact ⟨m₁, hbody⟩

theorem Fails.asCall {body : Exec α} (h : Fails (asCall body) m halt) :
    Fails body { m with depth := m.depth + 1 } halt := by
  obtain ⟨m', h⟩ := h
  unfold Exec.asCall at h
  cases hbody : body { m with depth := m.depth + 1 } with
  | ok a m₁ => rw [hbody] at h; cases h
  | error halt' m₁ =>
    rw [hbody] at h
    cases h
    exact ⟨m₁, hbody⟩

/-- What fails at first fails as a whole. -/
theorem Fails.first {x : Exec α} {f : α → Exec β} (h : Fails x m halt) :
    Fails (x >>= f) m halt := by
  obtain ⟨m', h⟩ := h
  refine ⟨m', ?_⟩
  change EStateM.bind x f m = _
  rw [EStateM.bind, h]

/-- What fails after something that ended well fails as a whole. -/
theorem Fails.after {x : Exec α} {f : α → Exec β} {a : α} {m₁ : Machine}
    (hfirst : x m = .ok a m₁) (h : Fails (f a) m₁ halt) : Fails (x >>= f) m halt := by
  obtain ⟨m', h⟩ := h
  refine ⟨m', ?_⟩
  change EStateM.bind x f m = _
  rw [EStateM.bind, hfirst]
  exact h

theorem Fails.insideFrame {frame : Nat} {body : Exec α}
    (h : Fails body { m with frame := frame } halt) : Fails (Exec.inFrame frame body) m halt := by
  obtain ⟨m', h⟩ := h
  exact ⟨{ m' with frame := m.frame }, by simp only [Exec.inFrame, h]⟩

theorem Fails.insideCall {body : Exec α} (h : Fails body { m with depth := m.depth + 1 } halt) :
    Fails (Exec.asCall body) m halt := by
  obtain ⟨m', h⟩ := h
  exact ⟨{ m' with depth := m'.depth - 1 }, by simp only [Exec.asCall, h]⟩

end Failing

/-! ## 3. Failures are not caught -/

section Propagation

variable {fuel : Nat} {m m' : Machine} {task task' : Task} {halt : Halt}

/-- A task fails if one that it asks for does. -/
theorem Asks.fails (hask : Asks fuel task m task' m') (h : Fails (task'.run fuel) m' halt) :
    Fails (task.run (fuel + 1)) m halt := by
  cases hask with
  | expression | print | initializer | ifThenCondition | ifElseCondition | ret =>
    rw [Task.run, execute]
    exact h.first
  | block =>
    rw [Task.run, execute]
    exact .after rfl (.after rfl h.insideFrame)
  | ifThen hcondition htruthy =>
    rw [Task.run, execute]
    exact .after hcondition (by rwa [if_pos htruthy])
  | ifElseThen hcondition htruthy =>
    rw [Task.run, execute]
    exact .after hcondition (by rwa [if_pos htruthy])
  | ifElseElse hcondition htruthy =>
    rw [Task.run, execute]
    exact .after hcondition (by rwa [if_neg (by simp [htruthy])])
  | loop =>
    rw [Task.run, execute]
    exact h
  | first =>
    rw [Task.run, executeAll]
    exact h.first
  | next hfirst =>
    rw [Task.run, executeAll]
    exact .after hfirst h
  | loopCondition =>
    rw [Task.run, executeLoop]
    exact h.first
  | round hcondition htruthy =>
    rw [Task.run, executeLoop]
    exact .after hcondition (by rw [if_pos htruthy]; exact h.first)
  | again hcondition htruthy hbody =>
    rw [Task.run, executeLoop]
    exact .after hcondition (by rw [if_pos htruthy]; exact .after hbody h)
  | group =>
    rw [Task.run, evaluate]
    exact h
  | operand | binaryLeft | logicalLeft | assigned | callee | propertyObject | fieldObject =>
    rw [Task.run, evaluate]
    exact h.first
  | binaryRight hleft =>
    rw [Task.run, evaluate]
    exact .after hleft h.first
  | logicalRight hleft hdecides =>
    rw [Task.run, evaluate]
    exact .after hleft (by rwa [if_neg (by simp [hdecides])])
  | arguments hcallee =>
    rw [Task.run, evaluate]
    exact .after hcallee h.first
  | call hcallee harguments =>
    rw [Task.run, evaluate]
    exact .after hcallee (.after harguments h)
  | fieldValue hobject =>
    rw [Task.run, evaluate]
    exact .after hobject h.first
  | present =>
    rw [Task.run, evaluateOption]
    exact h
  | head =>
    rw [Task.run, evaluateAll]
    exact h.first
  | tail hfirst =>
    rw [Task.run, evaluateAll]
    exact .after hfirst h.first
  | enter hcallee harity hdepth =>
    rw [Task.run, ScriptLang.call]
    refine .after rfl ?_
    rw [hcallee]
    dsimp only
    rw [if_neg (by simp [harity])]
    refine .after rfl ?_
    rw [if_neg hdepth]
    exact h.insideCall
  | function =>
    rw [Task.run, ScriptLang.enter]
    exact h
  | classInitializer hmethod hobject hbound =>
    rw [Task.run, ScriptLang.enter]
    refine .after rfl ?_
    cases hobject
    rw [hmethod]
    cases hbound
    exact .after rfl h.first
  | body =>
    rw [Task.run, ScriptLang.invoke]
    exact .after rfl h.insideFrame.first

end Propagation

end ScriptLang
