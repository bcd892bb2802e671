/-
ScriptLang.Proofs.Machine.Activation — one call from its first statement to its
`return`.

The evaluator is run once more, with a record of what an activation does
itself: which of its statements begin, which conditions of branches and loops
are tested, and which of its `return` statements are completed (`Moment`). What
the calls it makes do is not recorded. Without the record it is the same
evaluator (`watches`). The increment of a `for` is a statement in its loop.

Each statement form passes a `return` on, so one that is completed is the last
moment of its activation (`closing`), however it is nested. The call ends with
its value, on the machine on which it was completed: only the frame and the
number of calls in progress are the caller's again (`CallsInto.returns`).
-/
import ScriptLang.Proofs.Machine.Instance

namespace ScriptLang

open Exec

/-! ## 1. Moments -/

/-- What happens in an activation itself, as opposed to the calls it makes. -/
inductive Moment where
  /-- A statement begins. -/
  | begun (statement : Stmt)
  /-- The condition of a branch or of a loop is about to be evaluated. -/
  | tested (condition : Expr)
  /-- A `return` is completed on a machine: its value is there. -/
  | returned (keyword : Token) (value : Value) (m : Machine)

/-- Whether a `return` is completed. -/
def Moment.isReturn : Moment → Bool
  | .begun _ => false
  | .tested _ => false
  | .returned _ _ _ => true

/-- Something that happens on a machine, and the moments of it, in order. -/
def Watched (α : Type) : Type :=
  Machine → EStateM.Result Halt Machine α × List Moment

namespace Watched

variable {α β : Type}

/-- One thing after the other. -/
def bind (x : Watched α) (f : α → Watched β) : Watched β := fun m =>
  match x m with
  | (.ok a m', moments) => ((f a m').1, moments ++ (f a m').2)
  | (.error halt m', moments) => (.error halt m', moments)

instance : Monad Watched where
  pure a := fun m => (.ok a m, [])
  bind := Watched.bind

/-- Something that happens without a moment. -/
def quiet (x : Exec α) : Watched α := fun m => (x m, [])

/-- A moment, and nothing else. -/
def note (moment : Machine → Moment) : Watched Unit := fun m => (.ok () m, [moment m])

/-- Does something in a frame, and goes back to the current frame however it ends. -/
def inFrame (frame : Nat) (body : Watched α) : Watched α := fun m =>
  (Exec.inFrame frame (fun m => (body m).1) m, (body { m with frame := frame }).2)

/-- What happens, without the moments. -/
def run (x : Watched α) : Exec α := fun m => (x m).1

/-- The moments. -/
def moments (x : Watched α) (m : Machine) : List Moment := (x m).2

/-- The rest happens only if the statement before it ends normally. -/
def followedBy (x rest : Watched Flow) : Watched Flow := do
  match ← x with
  | .normal => rest
  | .returned value => pure (.returned value)

/-- Evaluates the condition of a branch or of a loop. -/
def test (fuel : Nat) (condition : Expr) : Watched Value := do
  note fun _ => .tested condition
  quiet (evaluate fuel condition)

end Watched

open Watched (quiet note test)

/-! ## 2. Watching -/

mutual
/-- Runs a statement, with its moments. -/
def watch : Nat → Stmt → Watched Flow
  | 0, _ => quiet (throw .outOfFuel)
  | fuel + 1, s => do
    note fun _ => .begun s
    match s with
    | .block body => do
      let outer := (← quiet get).frame
      let inner ← quiet (onStore (·.addFrame (some outer)))
      Watched.inFrame inner (watchAll fuel body)
    | .ifThen condition thenBranch => do
      if (← test fuel condition).isTruthy then watch fuel thenBranch else pure .normal
    | .ifElse condition thenBranch elseBranch => do
      if (← test fuel condition).isTruthy then watch fuel thenBranch else watch fuel elseBranch
    | .loop condition body => watchLoop fuel condition body
    | .ret keyword value => do
      let value ← quiet (evaluateOption fuel value)
      note (.returned keyword value)
      pure (.returned value)
    | .expression _ | .print _ | .var _ _ | .function _ | .classDecl _ _ =>
      quiet (execute (fuel + 1) s)

/-- Runs statements in order, up to the first `return`, with their moments. -/
def watchAll : Nat → List Stmt → Watched Flow
  | 0, _ => quiet (throw .outOfFuel)
  | _ + 1, [] => pure .normal
  | fuel + 1, s :: rest => (watch fuel s).followedBy (watchAll fuel rest)

/-- Runs a loop from before its condition, with its moments. -/
def watchLoop : Nat → Expr → Stmt → Watched Flow
  | 0, _, _ => quiet (throw .outOfFuel)
  | fuel + 1, condition, body => do
    if (← test fuel condition).isTruthy then
      (watch fuel body).followedBy (watchLoop fuel condition body)
    else pure .normal
end

section Erasing

variable {α β : Type} {m m' : Machine} {a : α} {halt : Halt}

theorem Exec.bind_of_ok {x : Exec α} {f : α → Exec β} (h : x m = .ok a m') :
    (x >>= f) m = f a m' := by
  show EStateM.bind x f m = f a m'
  unfold EStateM.bind
  rw [h]

theorem Exec.bind_of_error {x : Exec α} {f : α → Exec β} (h : x m = .error halt m') :
    (x >>= f) m = .error halt m' := by
  show EStateM.bind x f m = .error halt m'
  unfold EStateM.bind
  rw [h]

namespace Watched

theorem run_bind (x : Watched α) (f : α → Watched β) :
    (x >>= f).run = x.run >>= fun a => (f a).run := by
  funext m
  show (Watched.bind x f m).1 = EStateM.bind x.run (fun a => (f a).run) m
  unfold Watched.bind EStateM.bind run
  cases x m with
  | mk result moments => cases result <;> rfl

theorem moments_bind_of_ok {x : Watched α} {f : α → Watched β} (h : x.run m = .ok a m') :
    (x >>= f).moments m = x.moments m ++ (f a).moments m' := by
  show (Watched.bind x f m).2 = _
  unfold run at h
  unfold Watched.bind moments
  cases hx : x m with
  | mk result moments =>
    rw [hx] at h
    cases h
    rfl

theorem moments_bind_of_error {x : Watched α} {f : α → Watched β}
    (h : x.run m = .error halt m') : (x >>= f).moments m = x.moments m := by
  show (Watched.bind x f m).2 = _
  unfold run at h
  unfold Watched.bind moments
  cases hx : x m with
  | mk result moments =>
    rw [hx] at h
    cases h
    rfl

theorem run_pure (a : α) : (pure a : Watched α).run = pure a := rfl

theorem run_quiet (x : Exec α) : (quiet x).run = x := rfl

theorem run_note_bind (moment : Machine → Moment) (f : Unit → Watched α) :
    (note moment >>= f).run = (f ()).run := by
  rw [run_bind]
  rfl

theorem run_inFrame (frame : Nat) (body : Watched α) :
    (Watched.inFrame frame body).run = Exec.inFrame frame body.run := rfl

theorem run_test (fuel : Nat) (condition : Expr) :
    (test fuel condition).run = evaluate fuel condition := by
  rw [test, run_note_bind, run_quiet]

theorem run_followedBy (x rest : Watched Flow) :
    (x.followedBy rest).run = (do
      match ← x.run with
      | .normal => rest.run
      | .returned value => pure (.returned value)) := by
  rw [followedBy, run_bind]
  congr 1
  funext flow
  cases flow <;> rfl

end Watched

open Watched

/-- With an amount of fuel, watching changes nothing. -/
structure Watches (fuel : Nat) : Prop where
  statement : ∀ s, (watch fuel s).run = execute fuel s
  statements : ∀ body, (watchAll fuel body).run = executeAll fuel body
  loop : ∀ condition body, (watchLoop fuel condition body).run = executeLoop fuel condition body

variable {fuel : Nat}

theorem run_watch_succ (ih : Watches fuel) (s : Stmt) :
    (watch (fuel + 1) s).run = execute (fuel + 1) s := by
  cases s with
  | expression | print | var | function | classDecl => rw [watch, run_note_bind, run_quiet]
  | block body =>
    rw [watch, run_note_bind, execute]
    simp only [run_bind, run_quiet, run_inFrame, ih.statements]
  | ifThen condition thenBranch =>
    rw [watch, run_note_bind, execute]
    simp only [run_bind, run_test]
    congr 1
    funext value
    split <;> simp only [run_pure, ih.statement]
  | ifElse condition thenBranch elseBranch =>
    rw [watch, run_note_bind, execute]
    simp only [run_bind, run_test]
    congr 1
    funext value
    split <;> simp only [ih.statement]
  | loop condition body =>
    rw [watch, run_note_bind, execute]
    exact ih.loop condition body
  | ret keyword value =>
    rw [watch, run_note_bind, execute]
    simp only [run_bind, run_quiet, run_pure]
    rfl

theorem run_watchLoop_succ (ih : Watches fuel) (condition : Expr) (body : Stmt) :
    (watchLoop (fuel + 1) condition body).run = executeLoop (fuel + 1) condition body := by
  rw [watchLoop, executeLoop]
  simp only [run_bind, run_test]
  congr 1
  funext value
  split
  · have hround := run_followedBy (watch fuel body) (watchLoop fuel condition body)
    rw [ih.statement, ih.loop] at hround
    exact hround
  · rfl

/-- The evaluator that is watched is the evaluator. -/
theorem watches (fuel : Nat) : Watches fuel := by
  induction fuel with
  | zero => exact ⟨fun _ => rfl, fun _ => rfl, fun _ _ => rfl⟩
  | succ fuel ih =>
    refine ⟨run_watch_succ ih, fun body => ?_, run_watchLoop_succ ih⟩
    cases body with
    | nil => rfl
    | cons s rest =>
      have hfirst := run_followedBy (watch fuel s) (watchAll fuel rest)
      rw [ih.statement, ih.statements] at hfirst
      rw [watchAll, executeAll]
      exact hfirst

end Erasing

/-! ## 3. The last moment -/

/-- No `return` is completed. -/
def Unreturned (moments : List Moment) : Prop :=
  ∀ moment ∈ moments, moment.isReturn = false

/-- How statements end that begin on a machine: with no `return` completed, or with the only one as
the last moment. Then nothing has changed since but the current frame. -/
inductive Ends (m : Machine) : EStateM.Result Halt Machine Flow → List Moment → Prop where
  | normal {m' moments} : m'.frame = m.frame → Unreturned moments →
      Ends m (.ok .normal m') moments
  | halted {halt m' moments} : Unreturned moments → Ends m (.error halt m') moments
  | returned {keyword value m' moments} : Unreturned moments →
      Ends m (.ok (.returned value) { m' with frame := m.frame })
        (moments ++ [.returned keyword value m'])

/-- A statement that runs no statement in its activation and is no `return`. -/
def Stmt.isPlain : Stmt → Bool
  | .expression _ | .print _ | .var _ _ | .function _ | .classDecl _ _ => true
  | .block _ | .ifThen _ _ | .ifElse _ _ _ | .loop _ _ | .ret _ _ => false

section Closing

variable {α : Type} {m m' : Machine} {moments : List Moment}
variable {result : EStateM.Result Halt Machine Flow}

theorem Unreturned.append {moments' : List Moment} (h : Unreturned moments)
    (h' : Unreturned moments') : Unreturned (moments ++ moments') :=
  List.forall_mem_append.mpr ⟨h, h'⟩

/-- After moments in which no `return` is completed. -/
theorem Ends.after {before : List Moment} (h : Ends m' result moments) (hframe : m'.frame = m.frame)
    (hbefore : Unreturned before) : Ends m result (before ++ moments) := by
  cases h with
  | normal hback hmoments => exact .normal (hback.trans hframe) (hbefore.append hmoments)
  | halted hmoments => exact .halted (hbefore.append hmoments)
  | returned hmoments =>
    rw [hframe, ← List.append_assoc]
    exact .returned (hbefore.append hmoments)

/-- The first `return` that is completed is the last moment. -/
theorem Ends.last {before after : List Moment} {keyword : Token} {value : Value}
    (h : Ends m result (before ++ .returned keyword value m' :: after)) :
    after = [] ∧ result = .ok (.returned value) { m' with frame := m.frame } := by
  generalize hmoments : before ++ .returned keyword value m' :: after = moments at h
  have hmem : .returned keyword value m' ∈ moments := by simp [← hmoments]
  cases h with
  | normal _ hnone => cases hnone _ hmem
  | halted hnone => cases hnone _ hmem
  | @returned keyword' value' m₁ moments hnone =>
    rcases List.eq_nil_or_concat after with rfl | ⟨init, last, rfl⟩
    · obtain ⟨-, hlast⟩ := List.append_inj' hmoments rfl
      cases hlast
      exact ⟨rfl, rfl⟩
    · have hsplit : before ++ .returned keyword value m' :: init ++ [last] =
          moments ++ [.returned keyword' value' m₁] := by simpa using hmoments
      obtain ⟨rfl, -⟩ := List.append_inj' hsplit rfl
      cases hnone (.returned keyword value m') (by simp)

/-- What ends with a `return` has completed it. -/
theorem Ends.completed {value : Value} (h : Ends m (.ok (.returned value) m') moments) :
    ∃ keyword m₁, .returned keyword value m₁ ∈ moments := by
  cases h with
  | returned => exact ⟨_, _, List.mem_append_right _ (List.mem_singleton_self _)⟩

/-- However statements end, a `return` that is completed is their last moment. -/
def Watched.Closes (x : Watched Flow) : Prop :=
  ∀ m, Ends m (x.run m) (x.moments m)

/-- No `return` is completed, and the current frame is the same afterwards. -/
structure Watched.Passes (x : Watched α) : Prop where
  unreturned : ∀ m, Unreturned (x.moments m)
  frame : ∀ {m a m'}, x.run m = .ok a m' → m'.frame = m.frame

namespace Watched

theorem Passes.quiet {x : Exec α} (h : Restores x) : (quiet x).Passes :=
  ⟨fun _ => List.forall_mem_nil _, fun hrun => (h.ok hrun).frame_eq⟩

theorem Passes.note {moment : Machine → Moment} (h : ∀ m, (moment m).isReturn = false) :
    (note moment).Passes where
  unreturned m := by
    intro x hx
    rw [List.mem_singleton.mp hx]
    exact h m
  frame := by
    intro m a m' hrun
    cases hrun
    rfl

theorem Passes.bind {x : Watched α} {f : α → Watched Flow} (hx : x.Passes)
    (hf : ∀ a, (f a).Closes) : (x >>= f).Closes := by
  intro m
  rw [run_bind]
  cases hrun : x.run m with
  | ok a m' =>
    rw [Exec.bind_of_ok hrun, moments_bind_of_ok hrun]
    exact (hf a m').after (hx.frame hrun) (hx.unreturned m)
  | error halt m' =>
    rw [Exec.bind_of_error hrun, moments_bind_of_error hrun]
    exact .halted (hx.unreturned m)

theorem closes_pure : (pure .normal : Watched Flow).Closes :=
  fun _ => .normal rfl (List.forall_mem_nil _)

theorem closes_throw (halt : Halt) : (quiet (throw halt)).Closes :=
  fun _ => .halted (List.forall_mem_nil _)

/-- A statement passes a `return` on, and what follows it is not run. -/
theorem Closes.followedBy {x rest : Watched Flow} (hx : x.Closes) (hrest : rest.Closes) :
    (x.followedBy rest).Closes := by
  intro m
  have hends := hx m
  unfold Watched.followedBy
  rw [run_bind]
  cases hrun : x.run m with
  | ok flow m' =>
    rw [Exec.bind_of_ok hrun, moments_bind_of_ok hrun]
    rw [hrun] at hends
    generalize x.moments m = moments at hends
    cases hends with
    | normal hframe hmoments => exact (hrest _).after hframe hmoments
    | returned hmoments =>
      show Ends m _ (_ ++ [])
      rw [List.append_nil]
      exact .returned hmoments
  | error halt m' =>
    rw [Exec.bind_of_error hrun, moments_bind_of_error hrun]
    rw [hrun] at hends
    cases hends with
    | halted hmoments => exact .halted hmoments

theorem Closes.inFrame {x : Watched Flow} (hx : x.Closes) (frame : Nat) :
    (Watched.inFrame frame x).Closes := by
  intro m
  have hends := hx { m with frame := frame }
  show Ends m (Exec.inFrame frame x.run m) (x.moments { m with frame := frame })
  unfold Exec.inFrame
  generalize x.run { m with frame := frame } = result at hends
  generalize x.moments { m with frame := frame } = moments at hends
  cases hends with
  | normal _ hmoments => exact .normal rfl hmoments
  | halted hmoments => exact .halted hmoments
  | @returned keyword value m₁ moments hmoments =>
    have hreturned : Ends m (.ok (.returned value) { m₁ with frame := m.frame })
        (moments ++ [.returned keyword value m₁]) := .returned hmoments
    exact hreturned

theorem passes_test (fuel : Nat) (condition : Expr) : (test fuel condition).Passes := by
  have hrestores := restores fuel (.evaluate condition)
  refine ⟨fun m => ?_, fun hrun => ?_⟩
  · show Unreturned ([.tested condition] ++ [])
    simp [Unreturned, Moment.isReturn]
  · rw [run_test] at hrun
    exact (hrestores.ok hrun).frame_eq

end Watched

open Watched

/-- With an amount of fuel, a `return` that is completed is the last moment. -/
structure Closing (fuel : Nat) : Prop where
  statement : ∀ s, (watch fuel s).Closes
  statements : ∀ body, (watchAll fuel body).Closes
  loop : ∀ condition body, (watchLoop fuel condition body).Closes

variable {fuel : Nat}

/-- The beginning of a statement is no `return`. -/
theorem closes_begun {s : Stmt} {x : Watched Flow} (h : x.Closes) :
    (do note (fun _ => .begun s); x).Closes :=
  (Passes.note fun _ => rfl).bind fun _ => h

/-- What is not watched further restores the frame and ends normally, if it ends well. -/
theorem closes_quiet {x : Exec Flow} (h : Restores x)
    (hnormal : ∀ {m flow m'}, x m = .ok flow m' → flow = .normal) : (quiet x).Closes := by
  intro m
  have hnone : Unreturned [] := List.forall_mem_nil _
  show Ends m (x m) []
  cases hrun : x m with
  | error halt m' => exact .halted hnone
  | ok flow m' =>
    obtain rfl := hnormal hrun
    exact .normal (h.ok hrun).frame_eq hnone

/-- A plain statement ends normally, if it ends well. -/
theorem eq_normal_of_isPlain {s : Stmt} (hs : s.isPlain = true) {m m' : Machine} {flow : Flow}
    (h : execute (fuel + 1) s m = .ok flow m') : flow = .normal := by
  cases s with
  | block | ifThen | ifElse | loop | ret => cases hs
  | expression | function | classDecl =>
    rw [execute] at h
    obtain ⟨_, _, -, hdone⟩ := ok_of_bind h
    cases hdone
    rfl
  | print | var =>
    rw [execute] at h
    obtain ⟨_, _, -, hrest⟩ := ok_of_bind h
    obtain ⟨_, _, -, hdone⟩ := ok_of_bind hrest
    cases hdone
    rfl

theorem closes_watch_succ (ih : Closing fuel) (s : Stmt) : (watch (fuel + 1) s).Closes := by
  have hplain : ∀ {s}, s.isPlain = true →
      (do note (fun _ => .begun s); quiet (execute (fuel + 1) s)).Closes := fun hs =>
    closes_begun (closes_quiet (restores (fuel + 1) (.execute _)) (eq_normal_of_isPlain hs))
  cases s with
  | expression | print | var | function | classDecl =>
    rw [watch]
    exact hplain rfl
  | block body =>
    rw [watch]
    refine closes_begun ((Passes.quiet restores_get).bind fun outer => ?_)
    exact (Passes.quiet (restores_onStore _)).bind fun inner => (ih.statements body).inFrame inner
  | ifThen condition thenBranch =>
    rw [watch]
    refine closes_begun ((passes_test fuel condition).bind fun value => ?_)
    split
    · exact ih.statement thenBranch
    · exact closes_pure
  | ifElse condition thenBranch elseBranch =>
    rw [watch]
    refine closes_begun ((passes_test fuel condition).bind fun value => ?_)
    split
    · exact ih.statement thenBranch
    · exact ih.statement elseBranch
  | loop condition body =>
    rw [watch]
    exact closes_begun (ih.loop condition body)
  | ret keyword value =>
    rw [watch]
    refine closes_begun ((Passes.quiet (restores fuel (.evaluateOption value))).bind fun value => ?_)
    intro m
    have hnone : Unreturned [] := List.forall_mem_nil _
    have hends : Ends m (.ok (.returned value) { m with frame := m.frame })
        ([] ++ [.returned keyword value m]) := .returned hnone
    exact hends

theorem closes_watchLoop_succ (ih : Closing fuel) (condition : Expr) (body : Stmt) :
    (watchLoop (fuel + 1) condition body).Closes := by
  rw [watchLoop]
  refine (passes_test fuel condition).bind fun value => ?_
  split
  · exact (ih.statement body).followedBy (ih.loop condition body)
  · exact closes_pure

/-- A `return` that is completed is the last moment of its activation, however it is nested. -/
theorem closing (fuel : Nat) : Closing fuel := by
  induction fuel with
  | zero => exact ⟨fun _ => closes_throw _, fun _ => closes_throw _, fun _ _ => closes_throw _⟩
  | succ fuel ih =>
    refine ⟨closes_watch_succ ih, fun body => ?_, closes_watchLoop_succ ih⟩
    cases body with
    | nil => exact closes_pure
    | cons s rest => exact (ih.statement s).followedBy (ih.statements rest)

end Closing

/-! ## 4. What the record holds -/

/-- A task that is part of running the statements of an activation. -/
def Task.RunsStatements : Task → Prop
  | .execute _ | .executeAll _ | .executeLoop _ _ => True
  | .evaluate _ | .evaluateOption _ | .evaluateAll _ | .call _ _ _ | .enter _ _ _ | .invoke _ _ =>
    False

/-- The condition that a task tests, if it does. -/
def Task.condition? : Task → Option Expr
  | .execute (.ifThen condition _) => some condition
  | .execute (.ifElse condition _ _) => some condition
  | .executeLoop condition _ => some condition
  | _ => none

/-- Doing the first task, the evaluator begins the second one in the same activation, with the fuel
that is left. -/
inductive Inside : Nat → Task → Machine → Events where
  | here {fuel task m} : Inside fuel task m fuel task m
  | step {fuel task m task' m' rest task'' m''} : Asks fuel task m task' m' →
      task'.RunsStatements → Inside fuel task' m' rest task'' m'' →
      Inside (fuel + 1) task m rest task'' m''

/-- The moments of a task. -/
def Task.moments (fuel : Nat) (m : Machine) : Task → List Moment
  | .execute s => (watch fuel s).moments m
  | .executeAll body => (watchAll fuel body).moments m
  | .executeLoop condition body => (watchLoop fuel condition body).moments m
  | _ => []

section Recording

variable {α β : Type} {m m' : Machine} {x : Watched α} {f : α → Watched β} {a : α}
variable {moments : List Moment}

theorem infix_of_eq {y : Watched α} (h : y = x) : x.moments m <:+: y.moments m := by
  subst h
  exact List.infix_rfl

theorem infix_of_rest (h : x.run m = .ok a m') (hrest : moments <:+: (f a).moments m') :
    moments <:+: (x >>= f).moments m := by
  rw [Watched.moments_bind_of_ok h]
  exact hrest.trans (List.suffix_append _ _).isInfix

theorem infix_of_first (hfirst : moments <:+: x.moments m) : moments <:+: (x >>= f).moments m := by
  refine hfirst.trans ?_
  cases hrun : x.run m with
  | ok a m' =>
    rw [Watched.moments_bind_of_ok hrun]
    exact (List.prefix_append _ _).isInfix
  | error halt m' =>
    exact (Watched.moments_bind_of_error hrun).symm ▸ List.infix_rfl

end Recording

section Inside

variable {fuel rest : Nat} {task task' : Task} {m m' : Machine}

theorem Inside.undertakes (h : Inside fuel task m rest task' m') :
    Undertakes fuel task m rest task' m' := by
  induction h with
  | here => exact .here
  | step hask _ _ ih => exact .step hask ih

/-- What is asked for in the same activation has its moments there. -/
theorem moments_of_asks (h : Asks fuel task m task' m') (hfirst : task.RunsStatements)
    (hsecond : task'.RunsStatements) : task'.moments fuel m' <:+: task.moments (fuel + 1) m := by
  have hevaluate : ∀ {condition value m m₁}, evaluate fuel condition m = .ok value m₁ →
      (test fuel condition).run m = .ok value m₁ := by
    intro condition value m m₁ h
    rw [Watched.run_test, h]
  have hexecute : ∀ {s flow m m₁}, execute fuel s m = .ok flow m₁ →
      (watch fuel s).run m = .ok flow m₁ := by
    intro s flow m m₁ h
    rw [(watches fuel).statement, h]
  cases h with
  | expression | print | initializer | ifThenCondition | ifElseCondition | ret | loopCondition =>
    exact hsecond.elim
  | block =>
    rw [Task.moments, Task.moments, watch]
    exact infix_of_rest rfl (infix_of_rest rfl (infix_of_rest rfl List.infix_rfl))
  | ifThen hcondition htruthy =>
    rw [Task.moments, Task.moments, watch]
    exact infix_of_rest rfl (infix_of_rest (hevaluate hcondition) (infix_of_eq (if_pos htruthy)))
  | ifElseThen hcondition htruthy =>
    rw [Task.moments, Task.moments, watch]
    exact infix_of_rest rfl (infix_of_rest (hevaluate hcondition) (infix_of_eq (if_pos htruthy)))
  | ifElseElse hcondition hfalsy =>
    rw [Task.moments, Task.moments, watch]
    have hnot : ¬ _ = true := Bool.not_eq_true _ ▸ hfalsy
    exact infix_of_rest rfl (infix_of_rest (hevaluate hcondition) (infix_of_eq (if_neg hnot)))
  | loop =>
    rw [Task.moments, Task.moments, watch]
    exact infix_of_rest rfl List.infix_rfl
  | first =>
    rw [Task.moments, Task.moments, watchAll]
    exact infix_of_first List.infix_rfl
  | next hnormal =>
    rw [Task.moments, Task.moments, watchAll]
    exact infix_of_rest (hexecute hnormal) List.infix_rfl
  | round hcondition htruthy =>
    rw [Task.moments, Task.moments, watchLoop]
    refine infix_of_rest (hevaluate hcondition) ?_
    rw [if_pos htruthy]
    exact infix_of_first List.infix_rfl
  | again hcondition htruthy hnormal =>
    rw [Task.moments, Task.moments, watchLoop]
    refine infix_of_rest (hevaluate hcondition) ?_
    rw [if_pos htruthy]
    exact infix_of_rest (hexecute hnormal) List.infix_rfl
  | _ => exact hfirst.elim

theorem Inside.moments (h : Inside fuel task m rest task' m') (htask : task.RunsStatements) :
    task'.moments rest m' <:+: task.moments fuel m := by
  induction h with
  | here => exact List.infix_rfl
  | step hask hruns _ ih => exact (ih hruns).trans (moments_of_asks hask htask hruns)

/-- The first moment of a statement is that it begins. -/
theorem begun_mem_moments (s : Stmt) (m : Machine) :
    .begun s ∈ (watch (fuel + 1) s).moments m := by
  cases s with
  | _ =>
    rw [watch, Watched.moments_bind_of_ok rfl]
    exact List.mem_cons_self

theorem begins_test (condition : Expr) (m : Machine) :
    [.tested condition] <:+: (test fuel condition).moments m :=
  infix_of_first List.infix_rfl

/-- A condition is tested when a branch or a round of a loop begins. -/
theorem tested_mem_moments {condition : Expr} (h : task.condition? = some condition)
    (m : Machine) : .tested condition ∈ task.moments (fuel + 1) m := by
  have hinfix : [.tested condition] <:+: task.moments (fuel + 1) m := by
    unfold Task.condition? at h
    split at h
    · cases h
      rw [Task.moments, watch]
      exact infix_of_rest rfl (infix_of_first (begins_test condition m))
    · cases h
      rw [Task.moments, watch]
      exact infix_of_rest rfl (infix_of_first (begins_test condition m))
    · cases h
      rw [Task.moments, watchLoop]
      exact infix_of_first (begins_test condition m)
    · cases h
  exact hinfix.subset List.mem_cons_self

/-- A `return` whose value is there is completed. -/
theorem returned_mem_moments {keyword : Token} {e : Option Expr} {value : Value}
    (h : evaluateOption fuel e m = .ok value m') :
    .returned keyword value m' ∈ (watch (fuel + 1) (.ret keyword e)).moments m := by
  have hinfix : [.returned keyword value m'] <:+:
      (watch (fuel + 1) (.ret keyword e)).moments m := by
    rw [watch]
    exact infix_of_rest rfl (infix_of_rest h (infix_of_first List.infix_rfl))
  exact hinfix.subset List.mem_cons_self

/-- In the activation of a body, a `return` is completed, with a value and on a machine. -/
inductive Completes (fuel : Nat) (body : List Stmt) (m : Machine) (keyword : Token) (value : Value)
    (m' : Machine) : Prop where
  | intro {rest e m₁} : Inside fuel (.executeAll body) m (rest + 1) (.execute (.ret keyword e)) m₁ →
      evaluateOption rest e m₁ = .ok value m' → Completes fuel body m keyword value m'

/-- Nothing that is done in an activation is missing among the moments of its body: every statement
that begins, every condition that is tested and every `return` that is completed is one. -/
structure RecordsAll (fuel : Nat) (body : List Stmt) (m : Machine) : Prop where
  begun : ∀ {rest s m'}, Inside fuel (.executeAll body) m (rest + 1) (.execute s) m' →
    .begun s ∈ (watchAll fuel body).moments m
  tested : ∀ {rest task m' condition}, Inside fuel (.executeAll body) m (rest + 1) task m' →
    task.condition? = some condition → .tested condition ∈ (watchAll fuel body).moments m
  returned : ∀ {keyword value m'}, Completes fuel body m keyword value m' →
    .returned keyword value m' ∈ (watchAll fuel body).moments m

theorem recordsAll (fuel : Nat) (body : List Stmt) (m : Machine) : RecordsAll fuel body m where
  begun h := (h.moments trivial).subset (begun_mem_moments _ _)
  tested h hcondition := (h.moments trivial).subset (tested_mem_moments hcondition _)
  returned := by
    rintro keyword value m' ⟨hinside, hvalue⟩
    exact (hinside.moments trivial).subset (returned_mem_moments hvalue)

end Inside

/-! ## 5. Calls -/

/-- In the activation of a closure that is called with arguments, a `return` is completed. -/
abbrev Closure.Completes (fuel : Nat) (closure : Closure) (arguments : List Value) (m : Machine)
    (keyword : Token) (value : Value) (m' : Machine) : Prop :=
  ScriptLang.Completes fuel closure.routine.body (m.forBody closure arguments) keyword value m'

/-- What a call gives whose body has come to a `return` with a value. -/
def Closure.resultOn (closure : Closure) (value : Value) (m : Machine) : Value :=
  if closure.isInitializer then (m.store.getHere? closure.frame selfName).getD .nil else value

section Calls

variable {fuel : Nat} {m m' m₁ : Machine} {e : Expr} {value result : Value} {keyword paren : Token}
variable {arguments values : List Value} {callee : Store.Callee} {closure : Closure}

theorem onStore_eq {α : Type} {change : Store → α × Store} {a : α} {s : Store}
    (h : change m.store = (a, s)) : onStore change m = .ok a { m with store := s } := by
  show EStateM.Result.ok (change m.store).1 { m with store := (change m.store).2 } = _
  rw [h]

/-- A body that has come to a `return` ends its call, on the machine on which the `return` was
completed, but back in the frame of the caller. -/
theorem invoke_of_completes (h : closure.Completes fuel arguments m keyword value m') :
    invoke (fuel + 1) closure arguments m =
      .ok (closure.resultOn value m') { m' with frame := m.frame } := by
  obtain ⟨before, after, hsplit⟩ := List.append_of_mem ((recordsAll _ _ _).returned h)
  have hends := (closing fuel).statements closure.routine.body (m.forBody closure arguments)
  rw [(watches fuel).statements, hsplit] at hends
  have hbody := hends.last.2
  have hframe : frameForCall closure arguments m =
      .ok m.store.frames.size { m.forBody closure arguments with frame := m.frame } := rfl
  have hinside : inFrame m.store.frames.size (executeAll fuel closure.routine.body)
      { m.forBody closure arguments with frame := m.frame } =
        .ok (.returned value) { m' with frame := m.frame } := by
    have hthere : { m.forBody closure arguments with frame := m.store.frames.size } =
        m.forBody closure arguments := rfl
    unfold inFrame
    dsimp only
    rw [hthere, hbody]
  rw [invoke, Exec.bind_of_ok hframe, Exec.bind_of_ok hinside]
  unfold resultOfCall Closure.resultOn
  split <;> rfl

/-- A value that is a function to call is one of the store. -/
theorem function_of_callee? {s : Store} (h : s.callee? value = some (.function closure)) :
    ∃ id : Nat, s.functions[id]? = some closure := by
  cases value with
  | function id =>
    simp only [Store.callee?, Option.map_eq_some_iff, Store.Callee.function.injEq,
      exists_eq_right] at h
    exact ⟨id, h⟩
  | nil | bool | number | text | host | classRef | object => simp [Store.callee?] at h

/-- A call expression that comes to call something gives what the call gives. -/
theorem evaluate_of_asks (h : Asks fuel (.evaluate e) m (.call value paren values) m₁) :
    m₁.frame = m.frame ∧ m₁.depth = m.depth ∧
      evaluate (fuel + 1) e m = call fuel value paren values m₁ := by
  cases h with
  | @call id callee paren arguments _ _ m₂ _ _ hcallee harguments =>
    have hfirst := (restores fuel (.evaluate callee)).ok hcallee
    have hsecond := (restores fuel (.evaluateAll arguments)).ok harguments
    refine ⟨?_, ?_, ?_⟩
    · rw [hsecond.frame_eq, hfirst.frame_eq]
    · rw [hsecond.depth_eq, hfirst.depth_eq]
    · rw [evaluate, Exec.bind_of_ok hcallee, Exec.bind_of_ok harguments]

/-- A call that comes to enter what is called gives what it gives, as one more call in progress. -/
theorem call_of_asks (h : Asks fuel (.call value paren values) m (.enter callee paren values) m₁) :
    m.store.callee? value = some callee ∧ m₁ = { m with depth := m.depth + 1 } ∧
      call (fuel + 1) value paren values m = asCall (enter fuel callee paren values) m := by
  cases h with
  | enter hcallee harity hdepth =>
    refine ⟨hcallee, rfl, ?_⟩
    rw [call, get_bind, hcallee]
    dsimp only
    rw [if_neg (by simp [harity]), get_bind, if_neg hdepth]

/-- Entering a class, its initializer is bound to the new instance, which the call gives. -/
inductive Constructs : Store.Callee → Machine → Closure → Value → Prop where
  | initializer {classId info m method} : info.methods.get? initializerName = some method →
      Constructs (.classRef classId info) m { method with frame := m.store.frames.size }
        (.object m.store.objects.size)

/-- Where a body comes to a `return`, either its function was entered and gives what the body gives,
or the body is that of an initializer and the class was entered. -/
theorem enter_of_completes
    (h : Asks (fuel + 1) (.enter callee paren values) m (.invoke closure arguments) m₁)
    (hcompletes : closure.Completes fuel arguments m₁ keyword value m') :
    ∃ result, enter (fuel + 2) callee paren values m = .ok result { m' with frame := m.frame } ∧
      (callee = .function closure ∧ m₁ = m ∧ result = closure.resultOn value m' ∨
        Constructs callee m closure result) := by
  have hinvoke := invoke_of_completes hcompletes
  cases h with
  | function =>
    refine ⟨_, ?_, .inl ⟨rfl, rfl, rfl⟩⟩
    rw [enter]
    exact hinvoke
  | @classInitializer classId info _ _ _ method object s _ s' hmethod hobject hbound =>
    have hobjects : object = m.store.objects.size := (congrArg Prod.fst hobject).symm
    have hframes : s.frames = m.store.frames := (congrArg (·.2.frames) hobject).symm
    have hclosure : closure = { method with frame := s.frames.size } :=
      (congrArg Prod.fst hbound).symm
    have hnew : onStore (·.addObject classId) m = .ok object { m with store := s } :=
      onStore_eq hobject
    have hmade : onStore (·.bindMethod method object) { m with store := s } =
        .ok closure { m with store := s' } := onStore_eq hbound
    refine ⟨.object object, ?_, .inr ?_⟩
    · rw [enter, Exec.bind_of_ok hnew, hmethod]
      dsimp only
      rw [Exec.bind_of_ok hmade, Exec.bind_of_ok hinvoke]
      rfl
    · rw [hclosure, hframes, hobjects]
      exact .initializer hmethod

/-- Evaluating a call expression, the evaluator comes to run the body of a closure on arguments. -/
inductive CallsInto (fuel : Nat) (e : Expr) (m : Machine) (closure : Closure)
    (arguments : List Value) (m' : Machine) : Prop where
  | intro {value paren m₁ callee m₂} :
      Asks (fuel + 3) (.evaluate e) m (.call value paren arguments) m₁ →
      Asks (fuel + 2) (.call value paren arguments) m₁ (.enter callee paren arguments) m₂ →
      Asks (fuel + 1) (.enter callee paren arguments) m₂ (.invoke closure arguments) m' →
      CallsInto fuel e m closure arguments m'

theorem CallsInto.undertakes (h : CallsInto fuel e m closure arguments m₁) :
    Undertakes (fuel + 4) (.evaluate e) m (fuel + 1) (.invoke closure arguments) m₁ := by
  obtain ⟨hcall, henter, hinvoke⟩ := h
  exact .step hcall (.step henter (.step hinvoke .here))

/-- When a `return` is completed, the call expression gives its value, or the instance for which an
initializer was bound. It does so on the machine on which the `return` was completed, with the frame
and the number of calls in progress as they were before the call. -/
theorem CallsInto.returns (h : CallsInto fuel e m closure arguments m₁)
    (hcompletes : closure.Completes fuel arguments m₁ keyword value m') :
    ∃ result,
      evaluate (fuel + 4) e m = .ok result { m' with frame := m.frame, depth := m.depth } ∧
        ((∃ id : Nat, m₁.store.functions[id]? = some closure) ∧ result = closure.resultOn value m' ∨
          ∃ callee paren m₂,
            Undertakes (fuel + 4) (.evaluate e) m (fuel + 2) (.enter callee paren arguments) m₂ ∧
              Constructs callee m₂ closure result) := by
  obtain ⟨hcall, henter, hinvoke⟩ := h
  obtain ⟨hframe, hdepth, hevaluate⟩ := evaluate_of_asks hcall
  obtain ⟨hcallee, rfl, hcalled⟩ := call_of_asks henter
  obtain ⟨result, hentered, hresult⟩ := enter_of_completes hinvoke hcompletes
  have hcounted : m'.depth = m.depth + 1 :=
    hdepth ▸ ((restores (fuel + 2) (.enter _ _ arguments)).ok hentered).depth_eq
  refine ⟨result, ?_, ?_⟩
  · rw [hevaluate, hcalled, asCall, hentered]
    simp only [hframe, hcounted, Nat.add_sub_cancel]
  · rcases hresult with ⟨rfl, rfl, hresult⟩ | hconstructs
    · exact .inl ⟨function_of_callee? hcallee, hresult⟩
    · exact .inr ⟨_, _, _, .step hcall (.step henter .here), hconstructs⟩

end Calls

/-! ## 6. Initializers -/

/-- Functions of the store that are initializers are bound to an instance, and the initializers of
classes are the methods of that name. -/
def Discipline.bindsInitializers (H : Events) : Discipline where
  name _ := True
  function closure := closure.isInitializer = true →
    ∃ object, ActsFor H 0 closure.frame object closure.routine
  method _ name closure := closure.isInitializer = (name == initializerName)
  statement _ _ := True
  expression _ _ := True

theorem Discipline.bindsInitializers_lawful (H : Events) :
    (Discipline.bindsInitializers H).Lawful H where
  operand _ _ := trivial
  own _ _ := trivial
  branch _ _ := trivial
  block _ _ _ := trivial
  body _ _ _ := trivial
  declared _ := trivial
  assigned _ := trivial
  parameter _ _ := trivial
  function _ _ := ⟨trivial, fun hinit => by cases hinit⟩
  classDecl _ _ := ⟨trivial, fun _ _ => rfl⟩
  accessed hevent haccesses _ _ := by
    have hacts := ActsFor.bound hevent (.accessed haccesses)
    exact fun _ => ⟨_, hacts⟩
  constructed hevent hget _ := by
    have hacts := ActsFor.bound hevent (.constructed hget)
    exact fun _ => ⟨_, hacts⟩

end ScriptLang
