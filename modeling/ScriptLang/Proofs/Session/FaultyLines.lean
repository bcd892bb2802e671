/-
ScriptLang.Proofs.Session.FaultyLines — a line with a static fault has no
effect.

A line that is not run still uses up identities, and it may leave hop counts
behind. So an interactive session and the same session without its faulty
lines are not in equal states, and what is read from a later line differs in
its identities. But their machines agree with machines of the reference
evaluator that are the same up to identities (`Twins`), and this is kept by a
faulty line of the one session and by any other line of both. It follows that
deleting the faulty lines changes no answer to the others
(`faulty_lines_have_no_effect`).
-/
import ScriptLang.CommandLine
import ScriptLang.Proofs.Reference.Respelled
import ScriptLang.Proofs.Session.Joining

namespace ScriptLang

/-! ## 1. The runtime mark -/

/-- Static faults leave the runtime mark as it is. -/
theorem Ledger.hadRuntime_reportAll {ledger : Ledger} {faults : List Fault}
    (h : ∀ fault ∈ faults, fault.isStatic = true) :
    (ledger.reportAll faults).hadRuntime = ledger.hadRuntime := by
  induction faults generalizing ledger with
  | nil => rfl
  | cons fault faults ih =>
    rw [reportAll, List.foldl_cons, ← reportAll, ih fun f hf => h f (List.mem_cons_of_mem _ hf),
      report, h fault List.mem_cons_self]
    simp

namespace Session

open Grammar.Phrase (Script)
open Binding (Addressed RespelledAll)
open Reference (Agrees Extended Slots Others Alike halted? finalState)

variable {session other : Session} {source : List UInt8}

/-! ## 2. Sources in several sessions -/

/-- A source without syntax faults is read in the same way later in a session, with later
identities. -/
theorem script_shift (hgrammar : (session.script source).faults = [])
    (hle : session.nextId ≤ other.nextId) :
    other.script source =
      ⟨Stmt.relabelAll (.shift 0 (other.nextId - session.nextId))
          (session.script source).statements, [],
        other.nextId - session.nextId + (session.script source).nextId⟩ := by
  have hscript := (Grammar.script_of_parse hgrammar).shifted 0 (other.nextId - session.nextId)
  rw [map_moved_zero, Nat.sub_add_cancel hle] at hscript
  exact Grammar.parse_of_script hscript

/-- A source without static faults in some session has none of its own. -/
theorem Faultless.clean (h : session.Faultless source) : Clean source := by
  obtain ⟨statements, n, hscript⟩ := Grammar.phrased_of_derives
    (Grammar.script_of_parse h.grammar).derives _ rfl 0
  have hgrammar : ((Session.start .unbounded (steadyClock 0)).script source).faults = [] :=
    congrArg Parsed.faults (Grammar.parse_of_script hscript)
  refine ⟨h.lexical, hgrammar, ?_⟩
  have hbinding := h.binding
  rw [Session.binding, script_shift hgrammar (Nat.zero_le _), ← List.length_eq_zero_iff,
    Binding.faults_relabel _ _ (Session.start .unbounded (steadyClock 0)).machine.hops] at hbinding
  exact List.length_eq_zero_iff.mp hbinding

/-- Whether a source has static faults does not depend on the session. -/
theorem Faultless.elsewhere (h : session.Faultless source) (other : Session) :
    other.Faultless source :=
  h.clean.faultless other

/-! ## 3. Faulty units -/

/-- The status of a unit tells whether it was run. -/
theorem status_eq_staticFault (fuel : Nat) : (session.run fuel source).1 = .staticFault ↔
    ¬ (session.ledger.hadStatic = false ∧ session.Faultless source) := by
  constructor
  · rintro hfaulty ⟨hstatic, hfaultless⟩
    rw [run_of_faultless fuel hstatic hfaultless, interpret_eq] at hfaulty
    exact statusOf_ne_staticFault _ hfaulty
  · exact fun hnot => (run_of_faulty fuel hnot).1

/-- A unit that is not run changes nothing on the machine but hop counts. -/
theorem machine_of_faulty (fuel : Nat) (hfaulty : (session.run fuel source).1 = .staticFault) :
    (session.run fuel source).2.machine.store = session.machine.store ∧
      (session.run fuel source).2.machine.sink = session.machine.sink := by
  obtain ⟨-, -, hmachine⟩ := run_of_faulty fuel ((status_eq_staticFault fuel).mp hfaulty)
  rcases hmachine with hmachine | ⟨-, hmachine⟩ <;> rw [hmachine] <;> exact ⟨rfl, rfl⟩

/-- Between two units these are hop counts of its own identities. -/
theorem Settled.hops_of_faulty (h : Settled session) (fuel : Nat)
    (hfaulty : (session.run fuel source).1 = .staticFault) :
    ∃ hops, (session.run fuel source).2.machine = { session.machine with hops := hops } ∧
      Extended session.nextId session.machine.hops (session.run fuel source).2.nextId hops := by
  obtain ⟨-, hnextId, hmachine⟩ := run_of_faulty fuel ((status_eq_staticFault fuel).mp hfaulty)
  rw [hnextId]
  rcases hmachine with hmachine | ⟨hgrammar, hmachine⟩
  · exact ⟨_, hmachine, h.extended (Grammar.parse_grown _ _).1⟩
  · exact ⟨_, hmachine, Reference.extended_of_parse hgrammar h.unused⟩

/-- It leaves the runtime mark as it is. -/
theorem hadRuntime_of_faulty (fuel : Nat) (hfaulty : (session.run fuel source).1 = .staticFault) :
    (session.run fuel source).2.ledger.hadRuntime = session.ledger.hadRuntime := by
  have hlexical : ∀ fault ∈ faultsOf (ScriptLang.scan source), fault.isStatic = true :=
    isStatic_of_mem_itemsFrom 1 (pieces source)
  have hread : (session.parse source).2.ledger.hadRuntime = session.ledger.hadRuntime :=
    (Ledger.hadRuntime_reportAll (Grammar.parse_grown _ _).2).trans
      (Ledger.hadRuntime_reportAll hlexical)
  rw [run_eq] at hfaulty ⊢
  dsimp only at hfaulty ⊢
  cases hparse : (session.parse source).2.ledger.hadStatic with
  | true => exact hread
  | false =>
    rw [hparse, if_neg (by simp)] at hfaulty
    rw [if_neg (by simp)]
    split at hfaulty
    · rename_i hresolved
      obtain ⟨-, hgrammar⟩ := hadStatic_parse.mp hparse
      obtain ⟨-, htidy⟩ := built_script hgrammar
      rw [if_pos hresolved]
      exact (Ledger.hadRuntime_reportAll (Binding.isStatic_of_mem_resolve htidy)).trans hread
    · rw [interpret_eq] at hfaulty
      exact absurd hfaulty (statusOf_ne_staticFault _)

/-! ## 4. Lines -/

/-- What is seen of a line: how it ended, what it wrote, and the faults it gave. -/
structure Answer where
  status : Status
  written : List UInt8
  faults : List Fault
  deriving DecidableEq, Repr

/-- The answer of a session to a line. -/
def answer (fuel : Nat) (session : Session) (line : List UInt8) : Answer :=
  let after := session.runLine fuel line
  ⟨after.1, after.2.machine.sink.written.toList.drop session.machine.sink.written.size,
    after.2.ledger.faults⟩

/-- A session after a line, with its faults drained. -/
def afterLine (fuel : Nat) (session : Session) (line : List UInt8) : Session :=
  (replLine fuel session line).2

/-- The answers of a session to lines, one after the other. -/
def answers (fuel : Nat) (session : Session) : List (List UInt8) → List Answer
  | [] => []
  | line :: rest => session.answer fuel line :: answers fuel (session.afterLine fuel line) rest

/-- A session after some lines. -/
def afterLines (fuel : Nat) (session : Session) (lines : List (List UInt8)) : Session :=
  lines.foldl (afterLine fuel) session

/-- The lines that are run when a session is given some lines. -/
def withoutFaulty (fuel : Nat) (session : Session) : List (List UInt8) → List (List UInt8)
  | [] => []
  | line :: rest =>
    let kept := withoutFaulty fuel (session.afterLine fuel line) rest
    if (session.runLine fuel line).1 = .staticFault then kept else line :: kept

/-- Nothing between two units depends on the ledger. -/
theorem Settled.withLedger (h : Settled session) (ledger : Ledger) :
    Settled { session with ledger := ledger } :=
  ⟨h.top, h.unused, h.agrees⟩

theorem Settled.afterLine (h : Settled session) (fuel : Nat) (line : List UInt8) :
    Settled (session.afterLine fuel line) :=
  ((h.withLedger session.ledger.resetStatic).run fuel line).withLedger _

/-! ## 5. Two sessions -/

/-- Two drained sessions, of which the second may have used up more identities, run on machines
that are the same up to identities. -/
structure Twins (session other : Session) : Prop where
  first : Settled session
  second : Settled other
  le : session.nextId ≤ other.nextId
  drained : session.ledger.faults = []
  drained' : other.ledger.faults = []
  mark : other.ledger.hadRuntime = session.ledger.hadRuntime
  alike : ∃ slots slots' r others,
    Agrees (Addressed session.machine.hops session.nextId) ⟨slots, session.machine, r⟩ ∧
    Agrees (Addressed other.machine.hops other.nextId) ⟨slots', other.machine, r.twin others⟩ ∧
    Alike (fun _ _ => True) r.store others

/-- Every drained session is its own twin. -/
theorem Settled.twins (h : Settled session) (hdrained : session.ledger.faults = []) :
    Twins session session := by
  obtain ⟨slots, r, hagrees⟩ := h.agrees
  refine ⟨h, h, Nat.le_refl _, hdrained, hdrained, rfl, slots, slots, r, r.store.own, hagrees, ?_,
    hagrees.alike_self fun _ => trivial⟩
  rw [r.twin_own]
  exact hagrees

namespace Twins

variable {fuel : Nat} {line : List UInt8}

theorem sink (h : Twins session other) : other.machine.sink = session.machine.sink := by
  obtain ⟨_, _, r, others, hagrees, hagrees', -⟩ := h.alike
  exact hagrees'.sink.symm.trans hagrees.sink

theorem resetStatic (h : Twins session other) :
    other.ledger.resetStatic = session.ledger.resetStatic := by
  rw [Ledger.resetStatic, Ledger.resetStatic, h.drained, h.drained', h.mark]

/-- A faulty line of the second session. -/
theorem faulty (h : Twins session other) (hfaulty : (other.runLine fuel line).1 = .staticFault) :
    Twins session (other.afterLine fuel line) := by
  obtain ⟨slots, slots', r, others, hagrees, hagrees', halike⟩ := h.alike
  obtain ⟨hops, hmachine, hextended⟩ :=
    (h.second.withLedger other.ledger.resetStatic).hops_of_faulty fuel hfaulty
  have hkept : Agrees (Addressed hops (other.afterLine fuel line).nextId)
      ⟨slots', { other.machine with hops := hops }, r.twin others⟩ :=
    hagrees'.rebind (fun _ _ hold => hextended.addressed hold) fun _ _ hnew => hnew.hop
  have hafter : (other.afterLine fuel line).machine = { other.machine with hops := hops } :=
    hmachine
  refine ⟨h.first, h.second.afterLine fuel line, Nat.le_trans h.le hextended.le, h.drained, rfl,
    (hadRuntime_of_faulty fuel hfaulty).trans h.mark, slots, slots', r, others, hagrees, ?_, halike⟩
  rw [hafter]
  exact hkept

/-- Any other line is the same in both sessions, up to identities. -/
theorem respelled (h : Twins session other) (hfaultless : session.Faultless line) :
    RespelledAll (fun _ _ => True) [] (session.script line).statements
      (other.script line).statements := by
  have hsame : RespelledAll (fun _ _ => True) [] (session.script line).statements
      (session.script line).statements :=
    (h.first.placed hfaultless).respelled_self (fun _ => trivial)
      (.top (x := "") (y := "") (by decide) (by decide) []) fun _ _ _ => rfl
  rw [script_shift hfaultless.grammar h.le]
  refine hsame.relabel (fun t => ?_) fun _ _ _ => trivial
  simp [Relabelling.shift, Token.moved]

/-- The sessions answer it in the same way and are twins again. -/
theorem step (h : Twins session other) (hruns : (other.runLine fuel line).1 ≠ .staticFault) :
    session.answer fuel line = other.answer fuel line ∧
      Twins (session.afterLine fuel line) (other.afterLine fuel line) := by
  obtain ⟨-, hfaultless'⟩ := Classical.not_not.mp (mt (status_eq_staticFault fuel).mpr hruns)
  have hfaultless := hfaultless'.elsewhere { session with ledger := session.ledger.resetStatic }
  obtain ⟨slots, slots', r, others, hagrees, hagrees', halike⟩ := h.alike
  have hrun := (h.first.withLedger session.ledger.resetStatic).runsAs rfl hfaultless fuel hagrees
  have hrun' := (h.second.withLedger other.ledger.resetStatic).runsAs rfl hfaultless' fuel hagrees'
  -- The line runs on the two machines as on two machines that are the same up to identities.
  have hrespelled := h.respelled (hfaultless'.elsewhere session)
  obtain ⟨hhalted, others', hfinal, halike'⟩ :=
    Reference.interpret_respelled fuel hrespelled halike
  obtain ⟨slots₁, hagrees₁⟩ := hrun.agrees
  obtain ⟨slots₁', hagrees₁'⟩ := hrun'.agrees
  have hstatus : (session.runLine fuel line).1 = (other.runLine fuel line).1 :=
    hrun.status.trans ((congrArg statusOf hhalted).symm.trans hrun'.status.symm)
  have hledger : (session.runLine fuel line).2.ledger = (other.runLine fuel line).2.ledger := by
    refine hrun.ledger.trans (Eq.trans ?_ hrun'.ledger.symm)
    dsimp only
    rw [h.resetStatic]
    exact congrArg (ledgerAfter _) hhalted.symm
  have hsink : (session.runLine fuel line).2.machine.sink =
      (other.runLine fuel line).2.machine.sink :=
    hagrees₁.sink.symm.trans ((congrArg Reference.Machine.sink hfinal).symm.trans hagrees₁'.sink)
  have hagrees₂ : Agrees
      (Addressed (other.afterLine fuel line).machine.hops (other.afterLine fuel line).nextId)
      ⟨slots₁', (other.afterLine fuel line).machine,
        (finalState (Reference.interpret fuel (session.script line).statements r)).twin
          others'⟩ := by
    rw [← hfinal]
    exact hagrees₁'
  have hle : (session.script line).nextId ≤ (other.script line).nextId := by
    rw [script_shift hfaultless.grammar h.le]
    exact Nat.le_add_left _ _
  refine ⟨?_, h.first.afterLine fuel line, h.second.afterLine fuel line, ?_, rfl, rfl, ?_, slots₁,
    slots₁', _, others', hagrees₁, hagrees₂, halike'⟩
  · unfold answer
    dsimp only
    rw [hstatus, hsink, hledger, h.sink]
  · calc (session.afterLine fuel line).nextId
        _ = (session.script line).nextId := hrun.nextId
        _ ≤ (other.script line).nextId := hle
        _ = (other.afterLine fuel line).nextId := hrun'.nextId.symm
  · exact (congrArg Ledger.hadRuntime hledger).symm

/-- Any lines of the second session, and those of them that are run of the first one. -/
theorem lines (h : Twins session other) (fuel : Nat) (lines : List (List UInt8)) :
    session.answers fuel (other.withoutFaulty fuel lines) =
        (other.answers fuel lines).filter (·.status ≠ .staticFault) ∧
      Twins (session.afterLines fuel (other.withoutFaulty fuel lines))
        (other.afterLines fuel lines) := by
  induction lines generalizing session other with
  | nil => exact ⟨rfl, h⟩
  | cons line rest ih =>
    rw [withoutFaulty, answers]
    by_cases hfaulty : (other.runLine fuel line).1 = .staticFault
    · rw [if_pos hfaulty, List.filter_cons_of_neg (by simp [answer, hfaulty])]
      exact ih (h.faulty hfaulty)
    · obtain ⟨hanswer, htwins⟩ := h.step hfaulty
      obtain ⟨hanswers, hafter⟩ := ih htwins
      rw [if_neg hfaulty, List.filter_cons_of_pos (by simp [answer, hfaulty]), answers,
        hanswer, hanswers]
      exact ⟨rfl, hafter⟩

end Twins

/-! ## 6. Faulty lines -/

/-- The faulty lines among the lines of an interactive session, whose faults are drained after
each line, have no effect. Without them the session gives the same answers to the other lines,
ends with the same runtime mark and so with the same exit code; and such a line writes nothing and
leaves the store alone: the global variables, the captured ones and the fields of instances. -/
theorem faulty_lines_have_no_effect (h : Reachable session)
    (hdrained : session.ledger.faults = []) (fuel : Nat) (lines : List (List UInt8)) :
    let remaining := session.withoutFaulty fuel lines
    session.answers fuel remaining =
        (session.answers fuel lines).filter (·.status ≠ .staticFault) ∧
      (session.afterLines fuel remaining).ledger.hadRuntime =
        (session.afterLines fuel lines).ledger.hadRuntime ∧
      replExit (session.afterLines fuel remaining) = replExit (session.afterLines fuel lines) ∧
      ∀ before line after, lines = before ++ line :: after →
        let current := session.afterLines fuel before
        (current.runLine fuel line).1 = .staticFault →
          (current.answer fuel line).written = [] ∧
            (current.afterLine fuel line).machine.store = current.machine.store := by
  intro remaining
  obtain ⟨hanswers, htwins⟩ := (h.settled.twins hdrained).lines fuel lines
  have hmark := htwins.mark.symm
  refine ⟨hanswers, hmark, ?_, ?_⟩
  · rw [replExit, replExit, hmark]
  · intro before line after _ current hfaulty
    obtain ⟨hstore, hsink⟩ := machine_of_faulty fuel hfaulty
    refine ⟨?_, hstore⟩
    have hwritten : (current.runLine fuel line).2.machine.sink = current.machine.sink := hsink
    rw [answer, hwritten]
    exact List.drop_length

/-- A line that binds a local variable and returns from no function. -/
def strayReturn : List UInt8 := spelling "\x7bvar b;b;return;\x7d"

/-- A line that prints a global variable. -/
def globalPrinting : List UInt8 := spelling "print b;"

theorem faulty_lines_have_no_effect_strayReturn :
    let session := Session.start .unbounded (steadyClock 0)
    let lines := [globalDeclaration, strayReturn, globalPrinting, globalReading]
    (Reachable session ∧ session.ledger.faults = [] ∧
      session.withoutFaulty 3 lines = [globalDeclaration, globalPrinting, globalReading]) ∧
    session.answers 3 [globalDeclaration, globalPrinting, globalReading] =
      (session.answers 3 lines).filter (·.status ≠ .staticFault) ∧
    (session.answers 3 lines).map Answer.status =
      [.ok, .staticFault, .ok, .runtimeFault] := by
  intro session lines
  have hreachable : Reachable session := .start .unbounded (steadyClock 0)
  have hremaining : session.withoutFaulty 3 lines =
      [globalDeclaration, globalPrinting, globalReading] := by decide +kernel
  have heffect := (faulty_lines_have_no_effect hreachable rfl 3 lines).1
  rw [hremaining] at heffect
  exact ⟨⟨hreachable, rfl, hremaining⟩, heffect, by decide +kernel⟩

end Session

end ScriptLang
