/-
ScriptLang.Proofs.Session.Control — where a session stands between two units.

Whatever ran before and however it ended, the current frame is that of the
globals and no call is in progress (`Reachable.atRest`). So a unit starts with
room for `maxDepth` calls, comes to every task with at most as many in
progress, and fails with a stack overflow exactly if it comes to a call while
there are as many (`control_restored`).

To come to a call takes less fuel than to make it fail, by one unit: the call
itself needs it. So the two directions are stated with the fuel they need.
-/
import ScriptLang.Proofs.Machine.Control
import ScriptLang.Proofs.Session.Reachable

namespace ScriptLang.Session

open Reference (halted? finalState)

variable {session : Session} {source : List UInt8} {fuel : Nat}

/-! ## 1. Between two units -/

/-- The current frame is that of the globals, and no call is in progress. -/
structure AtRest (m : Machine) : Prop where
  top : m.frame = m.globals
  idle : m.depth = 0

theorem AtRest.restored {m m' : Machine} (h : AtRest m) (hrestored : Restored m m') : AtRest m' where
  top := by rw [hrestored.frame_eq, hrestored.globals_eq, h.top]
  idle := by rw [hrestored.depth_eq, h.idle]

theorem finalState_eq_left (x : Exec Unit) (m : Machine) : finalState (x m) = x.left m := by
  unfold Exec.left
  cases x m <;> rfl

theorem machine_of_faultless (fuel : Nat) (hstatic : session.ledger.hadStatic = false)
    (h : session.Faultless source) : (session.run fuel source).2.machine =
      (ScriptLang.interpret fuel (session.script source).statements).left
        (session.bound source) := by
  rw [run_of_faultless fuel hstatic h, interpret_eq]
  exact finalState_eq_left _ _

/-- A unit is run, or it leaves at most other hop counts behind. -/
theorem machine_run (fuel : Nat) (session : Session) (source : List UInt8) :
    (∃ hops, (session.run fuel source).2.machine = { session.machine with hops := hops }) ∨
    (session.ledger.hadStatic = false ∧ session.Faultless source ∧
      (session.run fuel source).2.machine =
        (ScriptLang.interpret fuel (session.script source).statements).left
          (session.bound source)) := by
  by_cases hruns : session.ledger.hadStatic = false ∧ session.Faultless source
  · exact .inr ⟨hruns.1, hruns.2, machine_of_faultless fuel hruns.1 hruns.2⟩
  · left
    obtain ⟨-, -, hmachine | ⟨-, hmachine⟩⟩ := run_of_faulty fuel hruns
    · exact ⟨_, hmachine⟩
    · exact ⟨_, hmachine⟩

theorem AtRest.bound (h : AtRest session.machine) : AtRest (session.bound source) := ⟨h.top, h.idle⟩

theorem AtRest.run (h : AtRest session.machine) (fuel : Nat) (source : List UInt8) :
    AtRest (session.run fuel source).2.machine := by
  rcases machine_run fuel session source with ⟨hops, hmachine⟩ | ⟨-, -, hmachine⟩
  · rw [hmachine]
    exact ⟨h.top, h.idle⟩
  · rw [hmachine]
    exact h.bound.restored (restores_interpret fuel _ _)

/-- Between two units a session is at rest. -/
theorem Reachable.atRest (h : Reachable session) : AtRest session.machine := by
  induction h with
  | start sink clock => exact ⟨rfl, rfl⟩
  | ledger ledger _ ih => exact ih
  | parse source _ ih => exact ih
  | run fuel source _ ih => exact ih.run fuel source

/-! ## 2. While a unit runs -/

/-- Running a unit, the evaluator comes to do a task on a machine. -/
def Performs (fuel : Nat) (session : Session) (source : List UInt8) (task : Task) (m : Machine) :
    Prop :=
  session.ledger.hadStatic = false ∧ session.Faultless source ∧
    ScriptVisits fuel (session.script source).statements (session.bound source) task m

/-- A unit ends with a runtime fault of a kind at a line. -/
def EndsWith (fuel : Nat) (session : Session) (source : List UInt8) (line : Nat)
    (kind : RuntimeKind) : Prop :=
  (session.run fuel source).1 = .runtimeFault ∧ ∃ cause, cause.kind = kind ∧
    (session.run fuel source).2.ledger.faults.getLast? = some (.runtime line cause)

/-- The statements of a unit fail with a runtime fault of a kind at a line. -/
def FailsWith (fuel : Nat) (session : Session) (source : List UInt8) (line : Nat)
    (kind : RuntimeKind) : Prop :=
  session.ledger.hadStatic = false ∧ session.Faultless source ∧ ∃ cause, cause.kind = kind ∧
    Fails (executeScript fuel (session.script source).statements) (session.bound source)
      (.fault (.runtime line cause))

/-- Running a unit, the evaluator comes to a call at a line that has the right number of arguments,
while there are `maxDepth` calls in progress. -/
def ComesToOverflow (fuel : Nat) (session : Session) (source : List UInt8) (line : Nat) : Prop :=
  ∃ value paren arguments m, session.Performs fuel source (.call value paren arguments) m ∧
    Overflows value arguments m ∧ paren.line = line

/-- With a sink that can be flushed, a script that fails fails in the same way as a whole. -/
theorem halted?_of_fails {statements : List Stmt} {m : Machine} {fault : Fault}
    (hflush : m.sink.flushFault = none) (h : Fails (executeScript fuel statements) m (.fault fault)) :
    halted? (ScriptLang.interpret fuel statements m) = some (.fault fault) := by
  obtain ⟨m', hrun⟩ := h
  have hrestored := (restores_executeScript fuel statements).error hrun
  rw [← hrestored.flushFault_eq] at hflush
  unfold ScriptLang.interpret
  simp [hrun, Exec.flush, hflush, halted?]

/-- A unit that ends has not run out of fuel. -/
theorem not_fails_of_status (hstatic : session.ledger.hadStatic = false)
    (hfaultless : session.Faultless source) (hstatus : (session.run fuel source).1 ≠ .unfinished) :
    ¬ Fails (executeScript fuel (session.script source).statements) (session.bound source)
      .outOfFuel := by
  rintro ⟨m', hrun⟩
  refine hstatus ?_
  rw [run_of_faultless fuel hstatic hfaultless, interpret_eq]
  unfold ScriptLang.interpret
  simp [hrun, halted?, statusOf]

section Ending

variable {more line : Nat} {kind : RuntimeKind}

/-- A unit that ends with a runtime fault ends with the fault of its statements. -/
theorem EndsWith.failsWith (h : session.EndsWith fuel source line kind) :
    session.FailsWith fuel source line kind := by
  obtain ⟨hstatus, cause, hkind, hlast⟩ := h
  obtain ⟨hstatic, hfaultless, hhalted⟩ := halted?_of_getLast? hstatus hlast
  exact ⟨hstatic, hfaultless, cause, hkind, fails_executeScript hhalted⟩

/-- A unit whose output can be flushed ends with the fault of its statements. -/
theorem FailsWith.endsWith (h : session.FailsWith fuel source line kind)
    (hflush : session.machine.sink.flushFault = none) : session.EndsWith fuel source line kind := by
  obtain ⟨hstatic, hfaultless, cause, hkind, hfails⟩ := h
  have hhalted := halted?_of_fails (m := session.bound source) hflush hfails
  unfold EndsWith
  rw [run_of_faultless fuel hstatic hfaultless, interpret_eq]
  dsimp only
  rw [hhalted]
  exact ⟨rfl, cause, hkind, by simp [ledgerAfter, Ledger.report]⟩

/-- More fuel does not change how statements fail. -/
theorem FailsWith.mono (h : session.FailsWith fuel source line kind) (hle : fuel ≤ more) :
    session.FailsWith more source line kind := by
  obtain ⟨hstatic, hfaultless, cause, hkind, m', hfails⟩ := h
  exact ⟨hstatic, hfaultless, cause, hkind, m', (executeScript_fuel hle _).error (by simp) hfails⟩

/-- Statements fail for want of room only where the evaluator comes to a call that is one too
many. -/
theorem FailsWith.comesToOverflow (h : session.FailsWith fuel source line .stackOverflow)
    (hdepth : (session.bound source).depth ≤ maxDepth) :
    session.ComesToOverflow fuel source line := by
  obtain ⟨hstatic, hfaultless, cause, hkind, hfails⟩ := h
  obtain ⟨value, paren, arguments, m, hvisits, hoverflows, hline⟩ :=
    overflows_of_fails hdepth hkind hfails
  exact ⟨value, paren, arguments, m, ⟨hstatic, hfaultless, hvisits⟩, hoverflows, hline⟩

/-- With one unit of fuel more, the call that is one too many fails, and so do the statements. -/
theorem ComesToOverflow.failsWith (h : session.ComesToOverflow fuel source line) :
    session.FailsWith (fuel + 1) source line .stackOverflow := by
  obtain ⟨value, paren, arguments, m, ⟨hstatic, hfaultless, hvisits⟩, hoverflows, rfl⟩ := h
  exact ⟨hstatic, hfaultless, .stackOverflow, rfl, hvisits.overflows hoverflows⟩

/-- Statements that do not run out of fuel fail with the fuel that they have if they fail with
more. -/
theorem FailsWith.of_finished (h : session.FailsWith more source line kind) (hle : fuel ≤ more)
    (hstatus : (session.run fuel source).1 ≠ .unfinished) :
    session.FailsWith fuel source line kind := by
  obtain ⟨hstatic, hfaultless, cause, hkind, m', hfails⟩ := h
  have hfinished := not_fails_of_status hstatic hfaultless hstatus
  refine ⟨hstatic, hfaultless, cause, hkind, m', ?_⟩
  rw [← executeScript_fuel hle _ _ fun m₁ hout => hfinished ⟨m₁, hout⟩]
  exact hfails

end Ending

/-- Every task and every block, on every machine and with any fuel, leaves the current frame and the
number of calls in progress as they were, however it ends. In a session, the current frame between
two units is that of the globals and no call is in progress. While a unit runs there are never more
than `maxDepth` calls in progress. Its statements fail with a stack overflow exactly if the
evaluator comes to a call that has the right number of arguments while there are `maxDepth` calls in
progress: one that is come to fails as soon as there is a unit of fuel left for it, and at once if
the unit does not run out of fuel. A unit that ends with a runtime fault ends with that of its
statements, and it does end with it if its output can be flushed. -/
theorem control_restored (h : Reachable session) (fuel : Nat) (source : List UInt8) :
    (∀ (rest : Nat) (task : Task) (m : Machine),
      ((task.run rest).left m).frame = m.frame ∧ ((task.run rest).left m).depth = m.depth) ∧
    (∀ (rest : Nat) (body : List Stmt) (frame : Nat) (m : Machine),
      ((Exec.inFrame frame (executeAll rest body)).left m).frame = m.frame ∧
        ((Exec.inFrame frame (executeAll rest body)).left m).depth = m.depth) ∧
    (session.machine.frame = session.machine.globals ∧ session.machine.depth = 0) ∧
    (∀ task m, session.Performs fuel source task m → m.depth ≤ maxDepth) ∧
    (∀ line,
      (session.FailsWith fuel source line .stackOverflow →
        session.ComesToOverflow fuel source line) ∧
      (session.ComesToOverflow fuel source line →
        (∀ more > fuel, session.FailsWith more source line .stackOverflow) ∧
        ((session.run fuel source).1 ≠ .unfinished →
          session.FailsWith fuel source line .stackOverflow))) ∧
    ∀ line kind,
      (session.EndsWith fuel source line kind → session.FailsWith fuel source line kind) ∧
      (session.machine.sink.flushFault = none →
        session.FailsWith fuel source line kind → session.EndsWith fuel source line kind) := by
  have hdepth : (session.bound source).depth ≤ maxDepth := by
    rw [h.atRest.bound.idle]
    exact Nat.zero_le _
  refine ⟨?_, ?_, ⟨h.atRest.top, h.atRest.idle⟩, ?_, ?_, ?_⟩
  · intro rest task m
    have hrestored := restores rest task m
    exact ⟨hrestored.frame_eq, hrestored.depth_eq⟩
  · intro rest body frame m
    have hrestored := (restores rest (.executeAll body)).inFrame frame m
    exact ⟨hrestored.frame_eq, hrestored.depth_eq⟩
  · rintro task m ⟨-, -, hvisits⟩
    exact hvisits.depth_le hdepth
  · intro line
    refine ⟨fun hfails => hfails.comesToOverflow hdepth, fun hcomes => ⟨?_, ?_⟩⟩
    · exact fun more hmore => hcomes.failsWith.mono hmore
    · exact hcomes.failsWith.of_finished (Nat.le_succ fuel)
  · exact fun line kind => ⟨EndsWith.failsWith, fun hflush hfails => hfails.endsWith hflush⟩

/-! ## 3. A unit that overflows -/

theorem evaluate_global {m : Machine} {id : Nat} {name : Token} {value : Value}
    (hhops : m.hops.get? id = none)
    (hglobal : m.store.getHere? m.globals name.lexeme = some value) (fuel : Nat) :
    evaluate (fuel + 1) (.read id name) m = .ok value m := by
  have hget : m.store.get? m.globals name.lexeme = some value := by
    rw [Store.get?, m.store.find?_here (by simp [hglobal]), Option.bind_some, hglobal]
  rw [evaluate, Exec.readVariable_eq, hhops, Option.elim_none]
  exact Exec.readBy_of_some hget

/-- A function without parameters calls itself, as a global variable, and does nothing else. -/
structure CallsItself (m : Machine) (value : Value) (routine : Routine) (paren : Token) :
    Prop where
  callee : ∃ frame, m.store.callee? value = some (.function ⟨routine, frame, false⟩)
  parameters : routine.parameters = []
  body : ∃ id id' name, routine.body = [.expression (.call id (.read id' name) paren [])] ∧
    m.hops.get? id' = none ∧ m.store.getHere? m.globals name.lexeme = some value

namespace CallsItself

variable {m : Machine} {value : Value} {routine : Routine} {paren : Token}

/-- The function calls itself again in its body. -/
theorem deeper (h : CallsItself m value routine paren) (frame : Nat) :
    CallsItself ({ m with depth := m.depth + 1 }.forBody ⟨routine, frame, false⟩ []) value routine
      paren := by
  obtain ⟨frame', hcallee⟩ := h.callee
  obtain ⟨id, id', name, hbody, hhops, hglobal⟩ := h.body
  have hstore : ({ m with depth := m.depth + 1 }.forBody ⟨routine, frame, false⟩ []).store =
      (m.store.addFrame (some frame)).2 := by
    simp [Machine.forBody, Machine.inNewFrame, Store.defineAll]
  refine ⟨⟨frame', ?_⟩, h.parameters, id, id', name, hbody, hhops, ?_⟩
  · rw [hstore, ← hcallee]
    cases value <;> rfl
  · rw [hstore, Store.getHere?_addFrame]
    exact hglobal

/-- The calls go on until there is no room for one more. -/
theorem fails (h : CallsItself m value routine paren) {room : Nat}
    (hroom : m.depth + room = maxDepth) :
    Fails (ScriptLang.call (6 * room + 1) value paren []) m
      (.fault (.runtime paren.line .stackOverflow)) := by
  induction room generalizing m with
  | zero =>
    obtain ⟨frame, hcallee⟩ := h.callee
    have hoverflows : Overflows value [] m :=
      ⟨_, hcallee, by simp [Store.Callee.arity, h.parameters], hroom⟩
    exact ⟨m, hoverflows.fails 0 paren⟩
  | succ room ih =>
    obtain ⟨frame, hcallee⟩ := h.callee
    have hdeeper := h.deeper frame
    obtain ⟨id, id', name, hbody, hhops, hglobal⟩ := hdeeper.body
    have hinner := ih hdeeper (by rw [← hroom]; exact Nat.succ_add_eq_add_succ ..)
    have hcall : Asks (6 * room + 1) (.evaluate (.call id (.read id' name) paren [])) _
        (.call value paren []) _ := .call (evaluate_global hhops hglobal _) rfl
    have harity : ([] : List Value).length = (Store.Callee.function ⟨routine, frame, false⟩).arity := by
      simp [Store.Callee.arity, h.parameters]
    refine (Asks.enter hcallee harity (by omega)).fails (Asks.function.fails (Asks.body.fails ?_))
    rw [hbody]
    exact Asks.first.fails (Asks.expression.fails (hcall.fails hinner))

end CallsItself

/-- A unit that declares a function that calls itself, and calls it. -/
def endlessCalls : List UInt8 := spelling "fun f()\x7bf();\x7df();"

/-- The name of the function, and the parenthesis that ends its calls. -/
def endlessName : Token := ⟨.identifier, "f", none, 1⟩

def endlessParen : Token := ⟨.rightParen, ")", none, 1⟩

def endlessRoutine : Routine :=
  ⟨endlessName, [], [.expression (.call 1 (.read 0 endlessName) endlessParen [])]⟩

theorem script_endlessCalls :
    ((Session.start .unbounded (steadyClock 0)).script endlessCalls).statements =
      [.function endlessRoutine, .expression (.call 3 (.read 2 endlessName) endlessParen [])] := by
  decide +kernel

theorem control_restored_endlessCalls :
    let session := Session.start .unbounded (steadyClock 0)
    let fuel := 6 * maxDepth + 3
    Reachable session ∧ session.EndsWith fuel endlessCalls 1 .stackOverflow ∧
      ∃ value paren arguments m, session.Performs fuel endlessCalls (.call value paren arguments) m ∧
        Overflows value arguments m := by
  intro session fuel
  have hreachable : Reachable session := .start .unbounded (steadyClock 0)
  have hfaultless : session.Faultless endlessCalls :=
    ⟨by decide +kernel, by decide +kernel, by decide +kernel⟩
  let declared : Machine := { session.bound endlessCalls with
    store := (session.machine.store.addFunction ⟨endlessRoutine, 0, false⟩).2.define 0 "f"
      (.function 0) }
  have hhops : declared.hops.get? 0 = none ∧ declared.hops.get? 2 = none := by decide +kernel
  have hglobal : declared.store.getHere? declared.globals endlessName.lexeme =
      some (.function 0) := by decide +kernel
  have hcalls : CallsItself declared (.function 0) endlessRoutine endlessParen :=
    ⟨⟨0, rfl⟩, rfl, 1, 0, endlessName, rfl, hhops.1, hglobal⟩
  have hfails : Fails (executeScript fuel (session.script endlessCalls).statements)
      (session.bound endlessCalls) (.fault (.runtime 1 .stackOverflow)) := by
    have hdeclared : execute fuel (.function endlessRoutine) (session.bound endlessCalls) =
        .ok .normal declared := by
      rw [execute]
      rfl
    have hcall : Asks (6 * maxDepth + 1)
        (.evaluate (.call 3 (.read 2 endlessName) endlessParen [])) declared
        (.call (.function 0) endlessParen []) declared :=
      .call (evaluate_global hhops.2 hglobal _) rfl
    have hidle : declared.depth = 0 := rfl
    have hoverflow := hcalls.fails (show declared.depth + maxDepth = maxDepth by
      rw [hidle, Nat.zero_add])
    have hexpression := Asks.expression.fails (hcall.fails hoverflow)
    rw [script_endlessCalls]
    exact .after hdeclared (.first hexpression)
  have hfailsWith : session.FailsWith fuel endlessCalls 1 .stackOverflow :=
    ⟨rfl, hfaultless, .stackOverflow, rfl, hfails⟩
  obtain ⟨-, -, -, -, hoverflow, hending⟩ := control_restored hreachable fuel endlessCalls
  obtain ⟨value, paren, arguments, m, hperforms, hoverflows, -⟩ := (hoverflow 1).1 hfailsWith
  exact ⟨hreachable, (hending 1 _).2 rfl hfailsWith, value, paren, arguments, m, hperforms,
    hoverflows⟩

end ScriptLang.Session
