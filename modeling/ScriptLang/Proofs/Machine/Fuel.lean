/-
ScriptLang.Proofs.Machine.Fuel — more fuel does not change a result.

Something that ends with some fuel, well or with a fault, ends in the same way
with more. So whether a script ends, and how, does not depend on how much fuel
it is given, as long as it is enough (`interpret_fuel`).

`Refines x y` says that `y` does what `x` does unless `x` runs out of fuel. It
is kept by everything the evaluator is made of, so each function with one more
unit of fuel refines the same function with less, by induction on the fuel.

What is visited with some fuel is asked for with more fuel too, and has one unit
left then. So a task that always fails at once fails whatever comes by it, with
one unit of fuel more (`ScriptVisits.fails_succ`).
-/
import ScriptLang.Proofs.Machine.Visits

namespace ScriptLang

open Exec

/-! ## 1. Steps -/

/-- The second does what the first does, unless the first runs out of fuel. -/
def Refines {α : Type} (x y : Exec α) : Prop :=
  ∀ m, (∀ m', x m ≠ .error .outOfFuel m') → y m = x m

namespace Refines

variable {α β : Type} {x y z : Exec α}

theorem refl (x : Exec α) : Refines x x := fun _ _ => rfl

theorem trans (h : Refines x y) (h' : Refines y z) : Refines x z := by
  intro m hm
  have hy := h m hm
  rw [h' m (by rwa [hy]), hy]

/-- What ends well, and what fails for a reason of its own, ends in the same way. -/
theorem ok {m m' : Machine} {a : α} (h : Refines x y) (hx : x m = .ok a m') : y m = .ok a m' := by
  rw [h m (by simp [hx]), hx]

theorem error {m m' : Machine} {halt : Halt} (h : Refines x y) (hhalt : halt ≠ .outOfFuel)
    (hx : x m = .error halt m') : y m = .error halt m' := by
  rw [h m (by simp [hx, hhalt]), hx]

theorem of_le {f : Nat → Exec α} (hsucc : ∀ n, Refines (f n) (f (n + 1))) {n k : Nat} (hle : n ≤ k) :
    Refines (f n) (f k) := by
  induction hle with
  | refl => exact .refl _
  | step _ ih => exact ih.trans (hsucc _)

theorem outOfFuel (y : Exec α) : Refines (throw .outOfFuel) y :=
  fun m hm => absurd rfl (hm m)

theorem bind {f g : α → Exec β} (h : Refines x y) (hrest : ∀ a, Refines (f a) (g a)) :
    Refines (x >>= f) (y >>= g) := by
  intro m hm
  change ∀ m', EStateM.bind x f m ≠ .error .outOfFuel m' at hm
  change EStateM.bind y g m = EStateM.bind x f m
  unfold EStateM.bind at hm ⊢
  have hfirst : y m = x m := by
    refine h m fun m' hout => ?_
    rw [hout] at hm
    exact hm _ rfl
  rw [hfirst]
  cases hx : x m with
  | ok a m₁ =>
    rw [hx] at hm
    exact hrest a m₁ hm
  | error halt m₁ => rfl

theorem inFrame (frame : Nat) (h : Refines x y) : Refines (inFrame frame x) (inFrame frame y) := by
  intro m hm
  unfold Exec.inFrame at hm ⊢
  have hbody : y { m with frame := frame } = x { m with frame := frame } := by
    refine h _ fun m' hout => ?_
    rw [hout] at hm
    exact hm _ rfl
  rw [hbody]

theorem asCall (h : Refines x y) : Refines (asCall x) (asCall y) := by
  intro m hm
  unfold Exec.asCall at hm ⊢
  have hbody : y { m with depth := m.depth + 1 } = x { m with depth := m.depth + 1 } := by
    refine h _ fun m' hout => ?_
    rw [hout] at hm
    exact hm _ rfl
  rw [hbody]

end Refines

/-! ## 2. The evaluator -/

/-- With one more unit of fuel, every function of the evaluator refines itself. -/
structure FuelRefines (fuel : Nat) : Prop where
  statement : ∀ s, Refines (execute fuel s) (execute (fuel + 1) s)
  statements : ∀ body, Refines (executeAll fuel body) (executeAll (fuel + 1) body)
  loop : ∀ condition body,
    Refines (executeLoop fuel condition body) (executeLoop (fuel + 1) condition body)
  expression : ∀ e, Refines (evaluate fuel e) (evaluate (fuel + 1) e)
  option : ∀ e, Refines (evaluateOption fuel e) (evaluateOption (fuel + 1) e)
  expressions : ∀ es, Refines (evaluateAll fuel es) (evaluateAll (fuel + 1) es)
  call : ∀ value paren arguments,
    Refines (call fuel value paren arguments) (call (fuel + 1) value paren arguments)
  enter : ∀ callee paren arguments,
    Refines (enter fuel callee paren arguments) (enter (fuel + 1) callee paren arguments)
  invoke : ∀ closure arguments,
    Refines (invoke fuel closure arguments) (invoke (fuel + 1) closure arguments)

namespace FuelRefines

variable {fuel : Nat}

theorem statement_succ (ih : FuelRefines fuel) (s : Stmt) :
    Refines (execute (fuel + 1) s) (execute (fuel + 1 + 1) s) := by
  cases s with
  | expression value =>
    rw [execute, execute]
    exact (ih.expression _).bind fun _ => .refl _
  | print value =>
    rw [execute, execute]
    exact (ih.expression _).bind fun _ => .refl _
  | var name initializer =>
    rw [execute, execute]
    exact (ih.option _).bind fun _ => .refl _
  | block body =>
    rw [execute, execute]
    refine (Refines.refl _).bind fun m => (Refines.refl _).bind fun inner => ?_
    exact (ih.statements body).inFrame inner
  | ifThen condition thenBranch =>
    rw [execute, execute]
    refine (ih.expression _).bind fun value => ?_
    split
    · exact ih.statement _
    · exact .refl _
  | ifElse condition thenBranch elseBranch =>
    rw [execute, execute]
    refine (ih.expression _).bind fun value => ?_
    split
    · exact ih.statement _
    · exact ih.statement _
  | loop condition body =>
    rw [execute, execute]
    exact ih.loop _ _
  | function routine =>
    rw [execute, execute]
    exact .refl _
  | ret keyword value =>
    rw [execute, execute]
    exact (ih.option _).bind fun _ => .refl _
  | classDecl name methods =>
    rw [execute, execute]
    exact .refl _

theorem statements_succ (ih : FuelRefines fuel) (body : List Stmt) :
    Refines (executeAll (fuel + 1) body) (executeAll (fuel + 1 + 1) body) := by
  cases body with
  | nil =>
    rw [executeAll, executeAll]
    exact .refl _
  | cons s rest =>
    rw [executeAll, executeAll]
    refine (ih.statement _).bind fun flow => ?_
    cases flow with
    | normal => exact ih.statements _
    | returned value => exact .refl _

theorem loop_succ (ih : FuelRefines fuel) (condition : Expr) (body : Stmt) :
    Refines (executeLoop (fuel + 1) condition body) (executeLoop (fuel + 1 + 1) condition body) := by
  rw [executeLoop, executeLoop]
  refine (ih.expression _).bind fun value => ?_
  split
  · refine (ih.statement _).bind fun flow => ?_
    cases flow with
    | normal => exact ih.loop _ _
    | returned value => exact .refl _
  · exact .refl _

theorem expression_succ (ih : FuelRefines fuel) (e : Expr) :
    Refines (evaluate (fuel + 1) e) (evaluate (fuel + 1 + 1) e) := by
  cases e with
  | literal id constant =>
    rw [evaluate, evaluate]
    exact .refl _
  | group id inner =>
    rw [evaluate, evaluate]
    exact ih.expression _
  | unary id operator operand =>
    rw [evaluate, evaluate]
    exact (ih.expression _).bind fun _ => .refl _
  | binary id left operator right =>
    rw [evaluate, evaluate]
    exact (ih.expression _).bind fun _ => (ih.expression _).bind fun _ => .refl _
  | logical id left operator right =>
    rw [evaluate, evaluate]
    refine (ih.expression _).bind fun value => ?_
    split
    · exact .refl _
    · exact ih.expression _
  | read id name =>
    rw [evaluate, evaluate]
    exact .refl _
  | assign id name value =>
    rw [evaluate, evaluate]
    exact (ih.expression _).bind fun _ => .refl _
  | call id callee paren arguments =>
    rw [evaluate, evaluate]
    exact (ih.expression _).bind fun value => (ih.expressions _).bind fun values =>
      ih.call value paren values
  | property id object name =>
    rw [evaluate, evaluate]
    exact (ih.expression _).bind fun _ => .refl _
  | setProperty id object name value =>
    rw [evaluate, evaluate]
    refine (ih.expression _).bind fun target => ?_
    cases target with
    | object target => exact (ih.expression _).bind fun _ => .refl _
    | nil | bool | number | text | host | function | classRef => exact .refl _
  | self id keyword =>
    rw [evaluate, evaluate]
    exact .refl _

theorem option_succ (ih : FuelRefines fuel) (e : Option Expr) :
    Refines (evaluateOption (fuel + 1) e) (evaluateOption (fuel + 1 + 1) e) := by
  cases e with
  | none =>
    rw [evaluateOption, evaluateOption]
    exact .refl _
  | some e =>
    rw [evaluateOption, evaluateOption]
    exact ih.expression _

theorem expressions_succ (ih : FuelRefines fuel) (es : List Expr) :
    Refines (evaluateAll (fuel + 1) es) (evaluateAll (fuel + 1 + 1) es) := by
  cases es with
  | nil =>
    rw [evaluateAll, evaluateAll]
    exact .refl _
  | cons e rest =>
    rw [evaluateAll, evaluateAll]
    exact (ih.expression _).bind fun _ => (ih.expressions _).bind fun _ => .refl _

theorem call_succ (ih : FuelRefines fuel) (value : Value) (paren : Token)
    (arguments : List Value) :
    Refines (ScriptLang.call (fuel + 1) value paren arguments)
      (ScriptLang.call (fuel + 1 + 1) value paren arguments) := by
  rw [ScriptLang.call, ScriptLang.call]
  refine (Refines.refl _).bind fun m => ?_
  split
  · exact .refl _
  · split
    · exact .refl _
    · refine (Refines.refl _).bind fun m => ?_
      split
      · exact .refl _
      · exact (ih.enter _ paren arguments).asCall

theorem enter_succ (ih : FuelRefines fuel) (callee : Store.Callee) (paren : Token)
    (arguments : List Value) :
    Refines (ScriptLang.enter (fuel + 1) callee paren arguments)
      (ScriptLang.enter (fuel + 1 + 1) callee paren arguments) := by
  cases callee with
  | host provided =>
    rw [ScriptLang.enter, ScriptLang.enter]
    exact .refl _
  | function closure =>
    rw [ScriptLang.enter, ScriptLang.enter]
    exact ih.invoke closure arguments
  | classRef classId info =>
    rw [ScriptLang.enter, ScriptLang.enter]
    refine (Refines.refl _).bind fun object => ?_
    split
    · exact (Refines.refl _).bind fun bound => (ih.invoke bound arguments).bind fun _ => .refl _
    · exact .refl _

theorem invoke_succ (ih : FuelRefines fuel) (closure : Closure) (arguments : List Value) :
    Refines (ScriptLang.invoke (fuel + 1) closure arguments)
      (ScriptLang.invoke (fuel + 1 + 1) closure arguments) := by
  rw [ScriptLang.invoke, ScriptLang.invoke]
  exact (Refines.refl _).bind fun frame =>
    ((ih.statements closure.routine.body).inFrame frame).bind fun _ => .refl _

end FuelRefines

theorem fuelRefines (fuel : Nat) : FuelRefines fuel := by
  induction fuel with
  | zero =>
    exact ⟨fun _ => .outOfFuel _, fun _ => .outOfFuel _, fun _ _ => .outOfFuel _,
      fun _ => .outOfFuel _, fun _ => .outOfFuel _, fun _ => .outOfFuel _,
      fun _ _ _ => .outOfFuel _, fun _ _ _ => .outOfFuel _, fun _ _ => .outOfFuel _⟩
  | succ fuel ih =>
    exact ⟨ih.statement_succ, ih.statements_succ, ih.loop_succ, ih.expression_succ, ih.option_succ,
      ih.expressions_succ, ih.call_succ, ih.enter_succ, ih.invoke_succ⟩

/-! ## 3. Scripts -/

theorem refines_executeScript (fuel : Nat) (statements : List Stmt) :
    Refines (executeScript fuel statements) (executeScript (fuel + 1) statements) := by
  induction statements with
  | nil => exact .refl _
  | cons s rest ih =>
    rw [executeScript, executeScript]
    exact ((fuelRefines fuel).statement s).bind fun _ => ih

theorem refines_interpret (fuel : Nat) (statements : List Stmt) :
    Refines (interpret fuel statements) (interpret (fuel + 1) statements) := by
  intro m hm
  unfold interpret at hm ⊢
  have hrun : executeScript (fuel + 1) statements m = executeScript fuel statements m := by
    refine refines_executeScript fuel statements m fun m' hout => ?_
    rw [hout] at hm
    exact hm _ rfl
  rw [hrun]

/-- Statements that end with some fuel end in the same way with more. -/
theorem executeScript_fuel {fuel fuel' : Nat} (hle : fuel ≤ fuel') (statements : List Stmt) :
    Refines (executeScript fuel statements) (executeScript fuel' statements) :=
  .of_le (refines_executeScript · statements) hle

/-- A script that ends with some fuel ends in the same way with more. -/
theorem interpret_fuel {fuel fuel' : Nat} (hle : fuel ≤ fuel') (statements : List Stmt) :
    Refines (interpret fuel statements) (interpret fuel' statements) :=
  .of_le (refines_interpret · statements) hle

/-! ## 4. What is visited -/

section Visiting

variable {fuel : Nat} {m m' : Machine} {task task' : Task} {halt : Halt}

/-- What is asked for with some fuel is asked for with more: whatever had to end well before it
ends well again. -/
theorem Asks.succ (h : Asks fuel task m task' m') : Asks (fuel + 1) task m task' m' := by
  have hmore := fuelRefines fuel
  cases h with
  | ifThen hcondition htruthy => exact .ifThen ((hmore.expression _).ok hcondition) htruthy
  | ifElseThen hcondition htruthy => exact .ifElseThen ((hmore.expression _).ok hcondition) htruthy
  | ifElseElse hcondition htruthy => exact .ifElseElse ((hmore.expression _).ok hcondition) htruthy
  | next hfirst => exact .next ((hmore.statement _).ok hfirst)
  | round hcondition htruthy => exact .round ((hmore.expression _).ok hcondition) htruthy
  | again hcondition htruthy hbody =>
    exact .again ((hmore.expression _).ok hcondition) htruthy ((hmore.statement _).ok hbody)
  | binaryRight hleft => exact .binaryRight ((hmore.expression _).ok hleft)
  | logicalRight hleft hdecides => exact .logicalRight ((hmore.expression _).ok hleft) hdecides
  | arguments hcallee => exact .arguments ((hmore.expression _).ok hcallee)
  | call hcallee harguments =>
    exact .call ((hmore.expression _).ok hcallee) ((hmore.expressions _).ok harguments)
  | fieldValue hobject => exact .fieldValue ((hmore.expression _).ok hobject)
  | tail hfirst => exact .tail ((hmore.expression _).ok hfirst)
  | enter hcallee harity hroom => exact .enter hcallee harity hroom
  | classInitializer hmethod hobject hbound => exact .classInitializer hmethod hobject hbound
  -- nothing is evaluated before these
  | expression | print | initializer | block | ifThenCondition | ifElseCondition | loop | ret
  | first | loopCondition | group | operand | binaryLeft | logicalLeft | assigned | callee
  | propertyObject | fieldObject | present | head | function | body => constructor

/-- A task fails, with one unit of fuel more, if one that is visited meanwhile fails with any fuel
at all. -/
theorem Visits.fails_succ (hvisits : Visits fuel task m task' m')
    (h : ∀ rest, Fails (task'.run (rest + 1)) m' halt) : Fails (task.run (fuel + 1)) m halt := by
  induction hvisits with
  | here => exact h _
  | step hask _ ih => exact hask.succ.fails (ih h)

/-- A script fails, with one unit of fuel more, if something that is visited while it runs fails
with any fuel at all. -/
theorem ScriptVisits.fails_succ {statements : List Stmt}
    (hvisits : ScriptVisits fuel statements m task m')
    (h : ∀ rest, Fails (task.run (rest + 1)) m' halt) :
    Fails (executeScript (fuel + 1) statements) m halt := by
  induction hvisits with
  | now hvisits => exact (hvisits.fails_succ h).first
  | later hdone _ ih => exact .after (((fuelRefines fuel).statement _).ok hdone) (ih h)

end Visiting

end ScriptLang
