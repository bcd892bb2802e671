/-
ScriptLang.Proofs.Session.Termination — units without loops come to an end.

In a session in which no unit with a loop has been run, the store holds no loop
either, in whatever way functions and methods got there. So a unit without
loops ends, whatever it calls (`run_ends`): within each call there is only so
much code, and there is room for only so many calls.
-/
import ScriptLang.Proofs.Machine.Termination
import ScriptLang.Proofs.Session.Control
import ScriptLang.Proofs.Session.Joining

namespace ScriptLang.Session

variable {session : Session} {source : List UInt8} {bound fuel : Nat}

/-- A unit has no loop, or it is not run. -/
def Straight (session : Session) (source : List UInt8) : Prop :=
  session.ledger.hadStatic = false → session.Faultless source →
    Stmt.hasLoopAll (session.script source).statements = false

/-- The sessions in which no unit with a loop has been run. -/
inductive LoopFree : Session → Prop where
  | start (sink : Sink) (clock : Nat → Float) : LoopFree (.start sink clock)
  | ledger {session : Session} (ledger : Ledger) : LoopFree session →
      LoopFree { session with ledger := ledger }
  | parse {session : Session} (source : List UInt8) : LoopFree session →
      LoopFree (session.parse source).2
  | run {session : Session} (fuel : Nat) {source : List UInt8} : LoopFree session →
      session.Straight source → LoopFree (session.run fuel source).2

/-- The store holds no loops, and nothing that is larger than a bound. -/
def HoldsNoLoop (bound : Nat) (session : Session) : Prop :=
  Store.Granted (Discipline.loopless bound).toLicence session.machine.store

/-- The bound for a unit that is run next. -/
def boundFor (bound : Nat) (session : Session) (source : List UInt8) : Nat :=
  max bound (Stmt.sizeAll (session.script source).statements)

theorem HoldsNoLoop.widen (h : HoldsNoLoop bound session) (source : List UInt8) :
    HoldsNoLoop (boundFor bound session source) session :=
  Discipline.granted_loopless_mono (Nat.le_max_left _ _) h

theorem loopless_script (hloop : Stmt.hasLoopAll (session.script source).statements = false) :
    ∀ s ∈ (session.script source).statements,
      s.hasLoop = false ∧ s.size ≤ boundFor bound session source :=
  fun _ hmem => loopless_mem hloop (Nat.le_max_right _ _) hmem

theorem HoldsNoLoop.run (h : HoldsNoLoop bound session) (hstraight : session.Straight source)
    (fuel : Nat) :
    HoldsNoLoop (boundFor bound session source) (session.run fuel source).2 := by
  unfold HoldsNoLoop
  rcases machine_run fuel session source with ⟨hops, hmachine⟩ | ⟨hstatic, hfaultless, hmachine⟩
  · rw [hmachine]
    exact h.widen source
  · rw [hmachine, left_interpret_store]
    have hlawful := Discipline.loopless_lawful (boundFor bound session source) fun _ _ _ => True
    have hready : (Discipline.loopless (boundFor bound session source)).ScriptReady
        (fun _ _ _ => True) fuel (session.script source).statements (session.bound source) :=
      ⟨loopless_script (hstraight hstatic hfaultless), h.widen source, fun _ => trivial⟩
    exact (Discipline.evolves_executeScript hlawful hready).granted (h.widen source)

theorem LoopFree.holdsNoLoop (h : LoopFree session) : ∃ bound, HoldsNoLoop bound session := by
  induction h with
  | start sink clock => exact ⟨0, Machine.granted_start _ sink clock⟩
  | ledger ledger _ ih => exact ih
  | parse source _ ih => exact ih
  | run fuel _ hstraight ih =>
    obtain ⟨bound, hbound⟩ := ih
    exact ⟨_, hbound.run hstraight fuel⟩

/-- A script whose statements do not run out of fuel does not either. -/
theorem halted?_ne_outOfFuel {statements : List Stmt} {m : Machine}
    (h : ¬ Fails (executeScript fuel statements) m .outOfFuel) :
    Reference.halted? (ScriptLang.interpret fuel statements m) ≠ some .outOfFuel := by
  unfold ScriptLang.interpret
  cases hrun : executeScript fuel statements m with
  | ok _ m' => cases hflush : m'.sink.flushFault <;> simp [Exec.flush, hflush, Reference.halted?]
  | error halt m' =>
    cases halt with
    | outOfFuel => exact absurd ⟨m', hrun⟩ h
    | fault fault =>
      cases hflush : m'.sink.flushFault <;> simp [Exec.flush, hflush, Reference.halted?]

/-- In a session in which no unit with a loop has been run, a unit without loops comes to an end,
well or with a fault, and with more fuel than it needs it ends in the same way. -/
theorem run_ends (h : LoopFree session) (hstraight : session.Straight source) :
    ∃ fuel, (session.run fuel source).1 ≠ .unfinished ∧
      ∀ more, fuel ≤ more → session.run more source = session.run fuel source := by
  obtain ⟨bound, hbound⟩ := h.holdsNoLoop
  suffices hends : (session.run (enoughFuel (boundFor bound session source)) source).1 ≠ .unfinished
    from ⟨_, hends, fun more hle => run_fuel hle hends⟩
  by_cases hruns : session.ledger.hadStatic = false ∧ session.Faultless source
  · obtain ⟨hstatic, hfaultless⟩ := hruns
    have hnot : ¬ Fails (executeScript (enoughFuel (boundFor bound session source))
        (session.script source).statements) (session.bound source) .outOfFuel :=
      script_ends (loopless_script (hstraight hstatic hfaultless)) (hbound.widen source)
    rw [run_of_faultless _ hstatic hfaultless, interpret_eq]
    have hhalted := halted?_ne_outOfFuel hnot
    intro hunfinished
    cases hhalt : Reference.halted? (ScriptLang.interpret (enoughFuel (boundFor bound session source))
        (session.script source).statements (session.bound source)) with
    | none => simp [hhalt, statusOf] at hunfinished
    | some halt =>
      cases halt with
      | outOfFuel => exact hhalted hhalt
      | fault fault => simp [hhalt, statusOf] at hunfinished
  · rw [(run_of_faulty _ hruns).1]
    simp

theorem run_ends_endlessCalls :
    let session := Session.start .unbounded (steadyClock 0)
    LoopFree session ∧ session.Faultless endlessCalls ∧ session.Straight endlessCalls ∧
      ∃ fuel, (session.run fuel endlessCalls).1 ≠ .unfinished := by
  intro session
  have hloopFree : LoopFree session := .start .unbounded (steadyClock 0)
  have hfaultless : session.Faultless endlessCalls :=
    ⟨by decide +kernel, by decide +kernel, by decide +kernel⟩
  have hstraight : session.Straight endlessCalls := by
    intro _ _
    rw [script_endlessCalls]
    rfl
  obtain ⟨fuel, hends, -⟩ := run_ends hloopFree hstraight
  exact ⟨hloopFree, hfaultless, hstraight, fuel, hends⟩

end ScriptLang.Session
