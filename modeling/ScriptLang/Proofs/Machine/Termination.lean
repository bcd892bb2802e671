/-
ScriptLang.Proofs.Machine.Termination — code without loops comes to an end.

Without loops, a run can go on for long only by calls, and what is called is
not a part of the code that calls it: it comes from the store. But calls are
nested at most `maxDepth` deep, and the bodies in the store are no larger than
the code that was ever run. So the tasks that a run begins inside each other
cost less and less (`Asks.cost_lt`), where the cost of a task is the size of
its code plus, for each call for which there still is room, an allotment that
is larger than any body. Fuel is what tasks inside each other use up, so more
fuel than the first task costs is enough (`ends`).

That the store holds no loops and nothing large is a discipline.
-/
import ScriptLang.Proofs.Machine.Discipline

namespace ScriptLang

/-! ## 1. Sizes and loops -/

mutual
/-- The size of an expression. -/
def Expr.size : Expr → Nat
  | .literal _ _ => 1
  | .group _ inner => inner.size + 1
  | .unary _ _ operand => operand.size + 1
  | .binary _ left _ right => left.size + right.size + 1
  | .logical _ left _ right => left.size + right.size + 1
  | .read _ _ => 1
  | .assign _ _ value => value.size + 1
  | .call _ callee _ arguments => callee.size + Expr.sizeAll arguments + 2
  | .property _ object _ => object.size + 1
  | .setProperty _ object _ value => object.size + value.size + 1
  | .self _ _ => 1

/-- The size of some expressions. -/
def Expr.sizeAll : List Expr → Nat
  | [] => 0
  | e :: rest => e.size + Expr.sizeAll rest + 1
end

/-- The size of an expression that may be missing. -/
def Expr.sizeOption : Option Expr → Nat
  | some e => e.size
  | none => 0

mutual
/-- The size of a statement. -/
def Stmt.size : Stmt → Nat
  | .expression value => value.size + 1
  | .print value => value.size + 1
  | .var _ initializer => Expr.sizeOption initializer + 2
  | .block body => Stmt.sizeAll body + 2
  | .ifThen condition thenBranch => condition.size + thenBranch.size + 1
  | .ifElse condition thenBranch elseBranch => condition.size + thenBranch.size + elseBranch.size + 1
  | .loop condition body => condition.size + body.size + 1
  | .function routine => routine.size + 1
  | .ret _ value => Expr.sizeOption value + 2
  | .classDecl _ methods => Routine.sizeAll methods + 1

/-- The size of some statements. -/
def Stmt.sizeAll : List Stmt → Nat
  | [] => 0
  | s :: rest => s.size + Stmt.sizeAll rest + 1

/-- The size of a routine. -/
def Routine.size : Routine → Nat
  | ⟨_, _, body⟩ => Stmt.sizeAll body

/-- The size of some methods. -/
def Routine.sizeAll : List Routine → Nat
  | [] => 0
  | r :: rest => r.size + Routine.sizeAll rest
end

mutual
/-- Whether there is a loop in a statement, also in the functions and classes it declares. -/
def Stmt.hasLoop : Stmt → Bool
  | .block body => Stmt.hasLoopAll body
  | .ifThen _ thenBranch => thenBranch.hasLoop
  | .ifElse _ thenBranch elseBranch => thenBranch.hasLoop || elseBranch.hasLoop
  | .loop _ _ => true
  | .function routine => routine.hasLoop
  | .classDecl _ methods => Routine.hasLoopAll methods
  | .expression _ => false
  | .print _ => false
  | .var _ _ => false
  | .ret _ _ => false

/-- Whether there is a loop in some statements. -/
def Stmt.hasLoopAll : List Stmt → Bool
  | [] => false
  | s :: rest => s.hasLoop || Stmt.hasLoopAll rest

/-- Whether there is a loop in a routine. -/
def Routine.hasLoop : Routine → Bool
  | ⟨_, _, body⟩ => Stmt.hasLoopAll body

/-- Whether there is a loop in some methods. -/
def Routine.hasLoopAll : List Routine → Bool
  | [] => false
  | r :: rest => r.hasLoop || Routine.hasLoopAll rest
end

section Parts

variable {s : Stmt} {body : List Stmt} {r : Routine} {methods : List Routine}

theorem Routine.size_eq (r : Routine) : r.size = Stmt.sizeAll r.body := by
  cases r
  rfl

theorem Routine.hasLoop_eq (r : Routine) : r.hasLoop = Stmt.hasLoopAll r.body := by
  cases r
  rfl

theorem Stmt.size_lt_of_mem (h : s ∈ body) : s.size < Stmt.sizeAll body := by
  induction body with
  | nil => cases h
  | cons first rest ih =>
    rw [Stmt.sizeAll]
    cases h with
    | head => omega
    | tail _ hrest =>
      have := ih hrest
      omega

theorem Routine.size_le_of_mem (h : r ∈ methods) : r.size ≤ Routine.sizeAll methods := by
  induction methods with
  | nil => cases h
  | cons first rest ih =>
    rw [Routine.sizeAll]
    cases h with
    | head => omega
    | tail _ hrest =>
      have := ih hrest
      omega

theorem Stmt.hasLoop_of_mem (hloop : Stmt.hasLoopAll body = false) (h : s ∈ body) :
    s.hasLoop = false := by
  induction body with
  | nil => cases h
  | cons first rest ih =>
    rw [Stmt.hasLoopAll, Bool.or_eq_false_iff] at hloop
    cases h with
    | head => exact hloop.1
    | tail _ hrest => exact ih hloop.2 hrest

theorem Routine.hasLoop_of_mem (hloop : Routine.hasLoopAll methods = false) (h : r ∈ methods) :
    r.hasLoop = false := by
  induction methods with
  | nil => cases h
  | cons first rest ih =>
    rw [Routine.hasLoopAll, Bool.or_eq_false_iff] at hloop
    cases h with
    | head => exact hloop.1
    | tail _ hrest => exact ih hloop.2 hrest

end Parts

/-! ## 2. Code without loops -/

/-- Statements and bodies have no loops and are not larger than a bound. -/
def Discipline.loopless (bound : Nat) : Discipline where
  name _ := True
  function closure := closure.routine.hasLoop = false ∧ closure.routine.size ≤ bound
  method _ _ closure := closure.routine.hasLoop = false ∧ closure.routine.size ≤ bound
  statement _ s := s.hasLoop = false ∧ s.size ≤ bound
  expression _ _ := True

section Loopless

variable {bound : Nat}

/-- The branches of a statement without loops have none, and are smaller. -/
theorem loopless_branch {s s' : Stmt} (h : s.hasLoop = false ∧ s.size ≤ bound)
    (hmem : s' ∈ s.branches) : s'.hasLoop = false ∧ s'.size ≤ bound := by
  obtain ⟨hloop, hsize⟩ := h
  cases s with
  | ifThen condition thenBranch =>
    obtain rfl := List.mem_singleton.mp hmem
    rw [Stmt.size] at hsize
    exact ⟨hloop, by omega⟩
  | ifElse condition thenBranch elseBranch =>
    rw [Stmt.hasLoop, Bool.or_eq_false_iff] at hloop
    rw [Stmt.size] at hsize
    simp only [Stmt.branches, List.mem_cons, List.not_mem_nil, or_false] at hmem
    rcases hmem with rfl | rfl
    · exact ⟨hloop.1, by omega⟩
    · exact ⟨hloop.2, by omega⟩
  | loop => cases hloop
  | expression | print | var | block | function | ret | classDecl => cases hmem

/-- The statements of a body without loops have none, and are smaller. -/
theorem loopless_mem {s : Stmt} {body : List Stmt} (hloop : Stmt.hasLoopAll body = false)
    (hsize : Stmt.sizeAll body ≤ bound) (hmem : s ∈ body) : s.hasLoop = false ∧ s.size ≤ bound := by
  have := Stmt.size_lt_of_mem hmem
  exact ⟨Stmt.hasLoop_of_mem hloop hmem, by omega⟩

theorem Discipline.loopless_lawful (bound : Nat) (H : Events) :
    (Discipline.loopless bound).Lawful H where
  operand _ _ := trivial
  own _ _ := trivial
  branch h hmem := loopless_branch h hmem
  block _ h hmem := by
    obtain ⟨hloop, hsize⟩ := h
    rw [Stmt.size] at hsize
    exact loopless_mem hloop (by omega) hmem
  body _ h hmem := by
    obtain ⟨hloop, hsize⟩ := h
    rw [Routine.hasLoop_eq] at hloop
    rw [Routine.size_eq] at hsize
    exact loopless_mem hloop hsize hmem
  declared _ := trivial
  assigned _ := trivial
  parameter _ _ := trivial
  function _ h := by
    obtain ⟨hloop, hsize⟩ := h
    rw [Stmt.size] at hsize
    exact ⟨trivial, hloop, by dsimp only; omega⟩
  classDecl _ h := by
    obtain ⟨hloop, hsize⟩ := h
    rw [Stmt.size] at hsize
    refine ⟨trivial, fun method hmem => ⟨Routine.hasLoop_of_mem hloop hmem, ?_⟩⟩
    have := Routine.size_le_of_mem hmem
    dsimp only
    omega
  accessed _ _ _ h := h
  constructed _ _ h := h

theorem Discipline.granted_loopless_mono {bound' : Nat} {s : Store} (hle : bound ≤ bound')
    (h : Store.Granted (Discipline.loopless bound).toLicence s) :
    Store.Granted (Discipline.loopless bound').toLicence s :=
  h.mono (fun _ hclosure => ⟨hclosure.1, Nat.le_trans hclosure.2 hle⟩)
    fun _ _ _ hmethod => ⟨hmethod.1, Nat.le_trans hmethod.2 hle⟩

end Loopless

/-! ## 3. Costs -/

/-- What a task costs by its own code. What is called has at most the size of a bound. -/
def Task.own (bound : Nat) : Task → Nat
  | .execute s => s.size
  | .executeAll body => Stmt.sizeAll body + 1
  | .executeLoop _ _ => 0
  | .evaluate e => e.size
  | .evaluateOption e => Expr.sizeOption e + 1
  | .evaluateAll es => Expr.sizeAll es + 1
  | .call _ _ _ => 0
  | .enter _ _ _ => bound + 3
  | .invoke _ _ => bound + 2

/-- What a task costs in all: by its own code and, with so many calls in progress, by the calls for
which there is room. -/
def Task.cost (bound depth : Nat) (task : Task) : Nat :=
  task.own bound + (maxDepth - depth) * (bound + 4)

/-- A task is not a round of a loop. -/
def Task.Straight (task : Task) : Prop :=
  ∀ condition body, task ≠ .executeLoop condition body

section Costs

variable {bound fuel : Nat} {task task' : Task} {m m' : Machine}

theorem Moves.depth_eq (h : Moves task m task' m')
    (hcall : ∀ value paren arguments, task ≠ .call value paren arguments) : m'.depth = m.depth := by
  cases h with
  | stays hrestored => exact hrestored.depth_eq
  | call => exact absurd rfl (hcall _ _ _)
  | block | body => rfl

/-- What is asked for by anything but a call has less code. -/
theorem Asks.own_lt (hask : Asks fuel task m task' m')
    (hallowed : (Discipline.loopless bound).Allows m.frame task) (hstraight : task.Straight)
    (hcall : ∀ value paren arguments, task ≠ .call value paren arguments) :
    task'.own bound < task.own bound := by
  cases hask with
  | loop => cases hallowed.1
  | loopCondition | round | again => exact absurd rfl (hstraight _ _)
  | enter => exact absurd rfl (hcall _ _ _)
  | @body closure =>
    have hsize : closure.routine.size ≤ bound := hallowed.2
    rw [Routine.size_eq] at hsize
    simp only [Task.own]
    omega
  | _ =>
    simp only [Task.own, Stmt.size, Stmt.sizeAll, Expr.size, Expr.sizeAll, Expr.sizeOption]
    omega

/-- What is asked for costs less. -/
theorem Asks.cost_lt (hask : Asks fuel task m task' m')
    (hallowed : (Discipline.loopless bound).Allows m.frame task) (hstraight : task.Straight) :
    task'.cost bound m'.depth < task.cost bound m.depth := by
  by_cases hcall : ∃ value paren arguments, task = .call value paren arguments
  · -- a call costs nothing by itself, and uses up one allotment
    obtain ⟨value, paren, arguments, rfl⟩ := hcall
    cases hask with
    | enter _ _ hroom =>
      have hrest : maxDepth - m.depth = maxDepth - (m.depth + 1) + 1 := by omega
      simp only [Task.cost, Task.own]
      rw [hrest, Nat.succ_mul]
      omega
  · have hother : ∀ value paren arguments, task ≠ .call value paren arguments :=
      fun value paren arguments heq => hcall ⟨value, paren, arguments, heq⟩
    have hown := hask.own_lt hallowed hstraight hother
    rw [Task.cost, Task.cost, hask.moves.depth_eq hother]
    omega

/-- Without loops no round of a loop is asked for. -/
theorem Asks.straight (hask : Asks fuel task m task' m')
    (hallowed : (Discipline.loopless bound).Allows m.frame task) (hstraight : task.Straight) :
    task'.Straight := by
  rintro condition body rfl
  cases hask with
  | loop => cases hallowed.1
  | again => exact hstraight _ _ rfl

/-- A task without loops, on a store without loops, ends with more fuel than it costs. -/
theorem ends (hready : (Discipline.loopless bound).Ready (fun _ _ _ => True) fuel task m)
    (hstraight : task.Straight) (hcost : task.cost bound m.depth < fuel) :
    ¬ Fails (task.run fuel) m .outOfFuel := by
  induction fuel generalizing task m with
  | zero => omega
  | succ fuel ih =>
    intro hfails
    have hlawful := Discipline.loopless_lawful bound fun _ _ _ => True
    cases hfails.halts with
    | asked hask hasked =>
      have hbetween := (Discipline.passes hlawful (Discipline.kept hlawful fuel) task hready).between hask
      have hless := hask.cost_lt hready.allowed hstraight
      exact ih hbetween.ready (hask.straight hready.allowed hstraight) (by omega) hasked
    | raised hraises =>
      obtain ⟨fault, heq, -⟩ := hraises.dynamic
      cases heq

/-! ## 4. Scripts -/

/-- The fuel that is enough for statements up to a size, with calls of bodies up to the size. -/
def enoughFuel (bound : Nat) : Nat :=
  bound + maxDepth * (bound + 4) + 1

/-- A script without loops, on a store without loops, ends with enough fuel. -/
theorem script_ends {statements : List Stmt}
    (hstatements : ∀ s ∈ statements, s.hasLoop = false ∧ s.size ≤ bound)
    (hgranted : Store.Granted (Discipline.loopless bound).toLicence m.store) :
    ¬ Fails (executeScript (enoughFuel bound) statements) m .outOfFuel := by
  have hlawful := Discipline.loopless_lawful bound fun _ _ _ => True
  have hready : (Discipline.loopless bound).ScriptReady (fun _ _ _ => True) (enoughFuel bound)
      statements m := ⟨hstatements, hgranted, fun _ => trivial⟩
  induction statements generalizing m with
  | nil => exact not_fails_pure ()
  | cons s rest ih =>
    intro hfails
    rw [executeScript] at hfails
    rcases hfails.bind with hfails | ⟨flow, m₁, hdone, hfails⟩
    · refine ends hready.head (fun _ _ => by simp) ?_ hfails
      have hsize : s.size ≤ bound := (hstatements s List.mem_cons_self).2
      have hroom : (maxDepth - m.depth) * (bound + 4) ≤ maxDepth * (bound + 4) :=
        Nat.mul_le_mul_right _ (Nat.sub_le _ _)
      simp only [Task.cost, Task.own, enoughFuel]
      omega
    · have hmore := (hready.tail hlawful hdone).2
      exact ih (fun s' hs' => hstatements s' (List.mem_cons_of_mem _ hs')) hmore.granted hmore hfails

end Costs

end ScriptLang
