/-
ScriptLang.Proofs.Reference.Fuel — more fuel does not change a result of the
reference evaluator.

What ends with some fuel, well or with a fault, ends in the same way with more
(`statement_fuel` and the others). So whether something ends, and how, does not
depend on how much fuel it is given, as long as it is enough.

As for the evaluator with frames (`Proofs.Machine.Fuel`), `Refines x y` says
that `y` does what `x` does unless `x` runs out of fuel, and each function with
one more unit of fuel refines the same function with less.
-/
import ScriptLang.Proofs.Reference.Evaluate

namespace ScriptLang.Reference

/-! ## 1. Steps -/

/-- The second does what the first does, unless the first runs out of fuel. -/
def Refines {α : Type} (x y : Exec α) : Prop :=
  ∀ r, (∀ r', x r ≠ .error .outOfFuel r') → y r = x r

namespace Refines

variable {α β : Type} {x y z : Exec α}

theorem refl (x : Exec α) : Refines x x := fun _ _ => rfl

theorem trans (h : Refines x y) (h' : Refines y z) : Refines x z := by
  intro r hr
  have hy := h r hr
  rw [h' r (by rwa [hy]), hy]

theorem outOfFuel (y : Exec α) : Refines (throw .outOfFuel) y :=
  fun r hr => absurd rfl (hr r)

theorem bind {f g : α → Exec β} (h : Refines x y) (hrest : ∀ a, Refines (f a) (g a)) :
    Refines (x >>= f) (y >>= g) := by
  intro r hr
  change ∀ r', EStateM.bind x f r ≠ .error .outOfFuel r' at hr
  change EStateM.bind y g r = EStateM.bind x f r
  unfold EStateM.bind at hr ⊢
  have hfirst : y r = x r := by
    refine h r fun r' hout => ?_
    rw [hout] at hr
    exact hr _ rfl
  rw [hfirst]
  cases hx : x r with
  | ok a r₁ =>
    rw [hx] at hr
    exact hrest a r₁ hr
  | error halt r₁ => rfl

/-- The same first step, and then more. -/
theorem after (x : Exec α) {f g : α → Exec β} (hrest : ∀ a, Refines (f a) (g a)) :
    Refines (x >>= f) (x >>= g) :=
  (refl x).bind hrest

theorem asCall (h : Refines x y) : Refines (Exec.asCall x) (Exec.asCall y) := by
  intro r hr
  unfold Exec.asCall at hr ⊢
  have hbody : y { r with depth := r.depth + 1 } = x { r with depth := r.depth + 1 } := by
    refine h _ fun r' hout => ?_
    rw [hout] at hr
    exact hr _ rfl
  rw [hbody]

end Refines

/-! ## 2. The evaluator -/

/-- With one more unit of fuel, every function of the evaluator refines itself. -/
structure FuelRefines (fuel : Nat) : Prop where
  statement : ∀ env s, Refines (execute fuel env s) (execute (fuel + 1) env s)
  statements : ∀ env body, Refines (executeAll fuel env body) (executeAll (fuel + 1) env body)
  loop : ∀ env condition body,
    Refines (executeLoop fuel env condition body) (executeLoop (fuel + 1) env condition body)
  expression : ∀ locals e, Refines (evaluate fuel locals e) (evaluate (fuel + 1) locals e)
  option : ∀ locals e, Refines (evaluateOption fuel locals e) (evaluateOption (fuel + 1) locals e)
  expressions : ∀ locals es, Refines (evaluateAll fuel locals es) (evaluateAll (fuel + 1) locals es)
  call : ∀ value paren arguments,
    Refines (call fuel value paren arguments) (call (fuel + 1) value paren arguments)
  enter : ∀ callee paren arguments,
    Refines (enter fuel callee paren arguments) (enter (fuel + 1) callee paren arguments)
  invoke : ∀ closure arguments,
    Refines (invoke fuel closure arguments) (invoke (fuel + 1) closure arguments)

namespace FuelRefines

variable {fuel : Nat}

theorem statement_succ (ih : FuelRefines fuel) (env : Env) (s : Stmt) :
    Refines (execute (fuel + 1) env s) (execute (fuel + 1 + 1) env s) := by
  cases s with
  | expression value =>
    rw [execute, execute]
    exact (ih.expression _ _).bind fun _ => .refl _
  | print value =>
    rw [execute, execute]
    exact (ih.expression _ _).bind fun _ => .refl _
  | var name initializer =>
    rw [execute, execute]
    exact .after _ fun inner => (ih.option _ _).bind fun _ => .refl _
  | block body =>
    rw [execute, execute]
    exact (ih.statements _ _).bind fun _ => .refl _
  | ifThen condition thenBranch =>
    rw [execute, execute]
    refine (ih.expression _ _).bind fun value => ?_
    split
    · exact ih.statement _ _
    · exact .refl _
  | ifElse condition thenBranch elseBranch =>
    rw [execute, execute]
    refine (ih.expression _ _).bind fun value => ?_
    split
    · exact ih.statement _ _
    · exact ih.statement _ _
  | loop condition body =>
    rw [execute, execute]
    exact (ih.loop _ _ _).bind fun _ => .refl _
  | function routine =>
    rw [execute, execute]
    exact .refl _
  | ret keyword value =>
    rw [execute, execute]
    exact (ih.option _ _).bind fun _ => .refl _
  | classDecl name methods =>
    rw [execute, execute]
    exact .refl _

theorem statements_succ (ih : FuelRefines fuel) (env : Env) (body : List Stmt) :
    Refines (executeAll (fuel + 1) env body) (executeAll (fuel + 1 + 1) env body) := by
  cases body with
  | nil =>
    rw [executeAll, executeAll]
    exact .refl _
  | cons s rest =>
    rw [executeAll, executeAll]
    refine (ih.statement _ _).bind ?_
    rintro ⟨flow, inner⟩
    cases flow with
    | normal => exact ih.statements _ _
    | returned value => exact .refl _

theorem loop_succ (ih : FuelRefines fuel) (env : Env) (condition : Expr) (body : Stmt) :
    Refines (executeLoop (fuel + 1) env condition body)
      (executeLoop (fuel + 1 + 1) env condition body) := by
  rw [executeLoop, executeLoop]
  refine (ih.expression _ _).bind fun value => ?_
  split
  · refine (ih.statement _ _).bind ?_
    rintro ⟨flow, inner⟩
    cases flow with
    | normal => exact ih.loop _ _ _
    | returned value => exact .refl _
  · exact .refl _

theorem expression_succ (ih : FuelRefines fuel) (locals : Locals) (e : Expr) :
    Refines (evaluate (fuel + 1) locals e) (evaluate (fuel + 1 + 1) locals e) := by
  cases e with
  | literal id constant =>
    rw [evaluate, evaluate]
    exact .refl _
  | group id inner =>
    rw [evaluate, evaluate]
    exact ih.expression _ _
  | unary id operator operand =>
    rw [evaluate, evaluate]
    exact (ih.expression _ _).bind fun _ => .refl _
  | binary id left operator right =>
    rw [evaluate, evaluate]
    exact (ih.expression _ _).bind fun _ => (ih.expression _ _).bind fun _ => .refl _
  | logical id left operator right =>
    rw [evaluate, evaluate]
    refine (ih.expression _ _).bind fun value => ?_
    split
    · exact .refl _
    · exact ih.expression _ _
  | read id name =>
    rw [evaluate, evaluate]
    exact .refl _
  | assign id name value =>
    rw [evaluate, evaluate]
    exact (ih.expression _ _).bind fun _ => .refl _
  | call id callee paren arguments =>
    rw [evaluate, evaluate]
    exact (ih.expression _ _).bind fun value => (ih.expressions _ _).bind fun values =>
      ih.call value paren values
  | property id object name =>
    rw [evaluate, evaluate]
    exact (ih.expression _ _).bind fun _ => .refl _
  | setProperty id object name value =>
    rw [evaluate, evaluate]
    refine (ih.expression _ _).bind fun target => ?_
    cases target with
    | object target => exact (ih.expression _ _).bind fun _ => .refl _
    | nil | bool | number | text | host | function | classRef => exact .refl _
  | self id keyword =>
    rw [evaluate, evaluate]
    exact .refl _

theorem option_succ (ih : FuelRefines fuel) (locals : Locals) (e : Option Expr) :
    Refines (evaluateOption (fuel + 1) locals e) (evaluateOption (fuel + 1 + 1) locals e) := by
  cases e with
  | none =>
    rw [evaluateOption, evaluateOption]
    exact .refl _
  | some e =>
    rw [evaluateOption, evaluateOption]
    exact ih.expression _ _

theorem expressions_succ (ih : FuelRefines fuel) (locals : Locals) (es : List Expr) :
    Refines (evaluateAll (fuel + 1) locals es) (evaluateAll (fuel + 1 + 1) locals es) := by
  cases es with
  | nil =>
    rw [evaluateAll, evaluateAll]
    exact .refl _
  | cons e rest =>
    rw [evaluateAll, evaluateAll]
    exact (ih.expression _ _).bind fun _ => (ih.expressions _ _).bind fun _ => .refl _

theorem call_succ (ih : FuelRefines fuel) (value : Value) (paren : Token)
    (arguments : List Value) :
    Refines (Reference.call (fuel + 1) value paren arguments)
      (Reference.call (fuel + 1 + 1) value paren arguments) := by
  rw [Reference.call, Reference.call]
  refine .after _ fun r => ?_
  split
  · exact .refl _
  · split
    · exact .refl _
    · refine .after _ fun r => ?_
      split
      · exact .refl _
      · exact (ih.enter _ paren arguments).asCall

theorem enter_succ (ih : FuelRefines fuel) (callee : Store.Callee) (paren : Token)
    (arguments : List Value) :
    Refines (Reference.enter (fuel + 1) callee paren arguments)
      (Reference.enter (fuel + 1 + 1) callee paren arguments) := by
  cases callee with
  | host provided =>
    rw [Reference.enter, Reference.enter]
    exact .refl _
  | function closure =>
    rw [Reference.enter, Reference.enter]
    exact ih.invoke closure arguments
  | classRef classId info =>
    rw [Reference.enter, Reference.enter]
    refine .after _ fun object => ?_
    split
    · exact .after _ fun bound => (ih.invoke bound arguments).bind fun _ => .refl _
    · exact .refl _

theorem invoke_succ (ih : FuelRefines fuel) (closure : Closure) (arguments : List Value) :
    Refines (Reference.invoke (fuel + 1) closure arguments)
      (Reference.invoke (fuel + 1 + 1) closure arguments) := by
  rw [Reference.invoke, Reference.invoke]
  exact .after _ fun locals => (ih.statements _ closure.routine.body).bind fun _ => .refl _

end FuelRefines

theorem fuelRefines (fuel : Nat) : FuelRefines fuel := by
  induction fuel with
  | zero =>
    exact ⟨fun _ _ => .outOfFuel _, fun _ _ => .outOfFuel _, fun _ _ _ => .outOfFuel _,
      fun _ _ => .outOfFuel _, fun _ _ => .outOfFuel _, fun _ _ => .outOfFuel _,
      fun _ _ _ => .outOfFuel _, fun _ _ _ => .outOfFuel _, fun _ _ => .outOfFuel _⟩
  | succ fuel ih =>
    exact ⟨ih.statement_succ, ih.statements_succ, ih.loop_succ, ih.expression_succ, ih.option_succ,
      ih.expressions_succ, ih.call_succ, ih.enter_succ, ih.invoke_succ⟩

/-! ## 3. Any more fuel -/

section More

variable {fuel fuel' : Nat}

/-- What a step of fuel does not change, any more fuel does not change. -/
theorem refines_of_le {α : Type} {x : Nat → Exec α}
    (hstep : ∀ fuel, Refines (x fuel) (x (fuel + 1))) (hle : fuel ≤ fuel') :
    Refines (x fuel) (x fuel') := by
  induction hle with
  | refl => exact .refl _
  | step _ ih => exact ih.trans (hstep _)

theorem statement_fuel (hle : fuel ≤ fuel') (env : Env) (s : Stmt) :
    Refines (execute fuel env s) (execute fuel' env s) :=
  refines_of_le (fun fuel => (fuelRefines fuel).statement env s) hle

theorem loop_fuel (hle : fuel ≤ fuel') (env : Env) (condition : Expr) (body : Stmt) :
    Refines (executeLoop fuel env condition body) (executeLoop fuel' env condition body) :=
  refines_of_le (fun fuel => (fuelRefines fuel).loop env condition body) hle

theorem expression_fuel (hle : fuel ≤ fuel') (locals : Locals) (e : Expr) :
    Refines (evaluate fuel locals e) (evaluate fuel' locals e) :=
  refines_of_le (fun fuel => (fuelRefines fuel).expression locals e) hle

theorem option_fuel (hle : fuel ≤ fuel') (locals : Locals) (e : Option Expr) :
    Refines (evaluateOption fuel locals e) (evaluateOption fuel' locals e) :=
  refines_of_le (fun fuel => (fuelRefines fuel).option locals e) hle

end More

end ScriptLang.Reference
