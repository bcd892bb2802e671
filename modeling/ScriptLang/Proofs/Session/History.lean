/-
ScriptLang.Proofs.Session.History — the ledger tells the history of a session.

Three things happen to a ledger: a fault is reported, the faults are drained,
and the static ones are reset. The log of a session has an entry for each time
one of them happened, in order. What the ledger holds and how it is marked can
be read off the log, however the operations of the session were interleaved
(`ledger_reflects_history`): the marks are cleared by other operations than the
list of faults is, so each has its own rule.

The same statement relates the status of a unit to the faults it reports. It
rests on the fact that running never raises a static fault.
-/
import ScriptLang.Proofs.Session.Control

namespace ScriptLang

open Reference (halted? finalState)

/-! ## 1. Logs -/

/-- Something that happens to a ledger. -/
inductive Entry where
  | reported (fault : Fault)
  | drained
  | reset
  deriving DecidableEq

namespace Entry

/-- Whether a fault is no longer held after some more entries: everything is drained, and static
faults are reset. -/
def forgets (later : List Entry) (fault : Fault) : Bool :=
  later.contains .drained || fault.isStatic && later.contains .reset

/-- The faults that are still held after all entries of a log, in the order of the log. -/
def held : List Entry → List Fault
  | [] => []
  | .reported fault :: later => if forgets later fault then held later else fault :: held later
  | .drained :: later => held later
  | .reset :: later => held later

/-- A static fault was reported after the last reset. -/
def StaticSinceReset (log : List Entry) : Prop :=
  ∃ before fault later, log = before ++ .reported fault :: later ∧ fault.isStatic = true ∧
    .reset ∉ later

/-- Another fault was ever reported. -/
def EverDynamic (log : List Entry) : Prop :=
  ∃ fault, .reported fault ∈ log ∧ fault.isStatic = false

variable {log : List Entry} {fault : Fault}

theorem staticSinceReset_cons {entry : Entry} : StaticSinceReset (entry :: log) ↔
    (∃ fault, entry = .reported fault ∧ fault.isStatic = true ∧ .reset ∉ log) ∨
      StaticSinceReset log := by
  constructor
  · rintro ⟨before, fault, later, heq, hstatic, hreset⟩
    cases before with
    | nil =>
      obtain ⟨rfl, rfl⟩ := List.cons_eq_cons.mp heq
      exact .inl ⟨fault, rfl, hstatic, hreset⟩
    | cons first before =>
      obtain ⟨rfl, rfl⟩ := List.cons_eq_cons.mp heq
      exact .inr ⟨before, fault, later, rfl, hstatic, hreset⟩
  · rintro (⟨fault, rfl, hstatic, hreset⟩ | ⟨before, fault, later, rfl, hstatic, hreset⟩)
    · exact ⟨[], fault, log, rfl, hstatic, hreset⟩
    · exact ⟨entry :: before, fault, later, rfl, hstatic, hreset⟩

end Entry

namespace Ledger

open Entry (forgets held StaticSinceReset EverDynamic staticSinceReset_cons)

/-- What an entry says has happened to a ledger. -/
def record (ledger : Ledger) : Entry → Ledger
  | .reported fault => ledger.report fault
  | .drained => ledger.drain.2
  | .reset => ledger.resetStatic

/-- What has happened to a ledger according to a log. -/
def replay (ledger : Ledger) (log : List Entry) : Ledger :=
  log.foldl record ledger

variable {ledger : Ledger} {log : List Entry}

theorem replay_append (ledger : Ledger) (log log' : List Entry) :
    ledger.replay (log ++ log') = (ledger.replay log).replay log' :=
  List.foldl_append

theorem replay_reported (ledger : Ledger) (faults : List Fault) :
    ledger.replay (faults.map .reported) = ledger.reportAll faults := by
  rw [replay, reportAll, List.foldl_map]
  rfl

theorem reportAll_append (ledger : Ledger) (faults faults' : List Fault) :
    ledger.reportAll (faults ++ faults') = (ledger.reportAll faults).reportAll faults' :=
  List.foldl_append

theorem hadRuntime_replay : (ledger.replay log).hadRuntime = true ↔
    ledger.hadRuntime = true ∨ EverDynamic log := by
  induction log generalizing ledger with
  | nil => simp [replay, EverDynamic]
  | cons entry log ih =>
    rw [replay, List.foldl_cons, ← replay, ih]
    cases entry with
    | reported fault =>
      cases hstatic : fault.isStatic <;>
        simp [record, report, EverDynamic, hstatic]
    | drained | reset => simp [record, drain, resetStatic, EverDynamic]

theorem hadStatic_replay : (ledger.replay log).hadStatic = true ↔
    (ledger.hadStatic = true ∧ .reset ∉ log) ∨ StaticSinceReset log := by
  induction log generalizing ledger with
  | nil => simp [replay, StaticSinceReset]
  | cons entry log ih =>
    rw [replay, List.foldl_cons, ← replay, ih, staticSinceReset_cons]
    cases entry with
    | reported fault =>
      simp only [record, report, Bool.or_eq_true, List.mem_cons, reduceCtorEq, false_or,
        Entry.reported.injEq, exists_eq_left', or_and_right, or_assoc]
    | drained => simp [record, drain]
    | reset => simp [record, resetStatic]

/-- What is held at the end was held at the beginning or reported meanwhile, and has not been
forgotten since. -/
theorem faults_replay :
    (ledger.replay log).faults = ledger.faults.filter (!forgets log ·) ++ held log := by
  induction log generalizing ledger with
  | nil =>
    have hkept : ledger.faults.filter (!forgets [] ·) = ledger.faults :=
      List.filter_eq_self.mpr (by simp [forgets])
    rw [hkept]
    exact (List.append_nil _).symm
  | cons entry log ih =>
    rw [replay, List.foldl_cons, ← replay, ih]
    cases entry with
    | reported fault =>
      have hlater : forgets (.reported fault :: log) = forgets log := by
        funext other
        simp [forgets]
      rw [hlater, record, report, List.filter_append, List.append_assoc, held]
      congr 1
      cases hforgets : forgets log fault <;> simp [hforgets]
    | drained =>
      simp [record, drain, held, forgets]
    | reset =>
      rw [record, resetStatic, held, List.filter_filter]
      congr 2
      funext other
      cases hstatic : other.isStatic <;> simp [forgets, hstatic]

end Ledger

/-! ## 2. Faults of a unit -/

/-- A script that ends with a fault ends with one that is not static. -/
theorem isStatic_of_interpret {fuel : Nat} {statements : List Stmt} {m : Machine} {fault : Fault}
    (h : halted? (interpret fuel statements m) = some (.fault fault)) : fault.isStatic = false := by
  unfold interpret at h
  cases hrun : executeScript fuel statements m with
  | ok _ m' =>
    rw [hrun] at h
    cases hflush : m'.sink.flushFault with
    | none => simp [Exec.flush, hflush, halted?] at h
    | some message =>
      obtain rfl : .output message = fault := by simpa [Exec.flush, hflush, halted?] using h
      rfl
  | error halt m' =>
    rw [hrun] at h
    cases halt with
    | outOfFuel => simp [halted?] at h
    | fault found =>
      cases hflush : m'.sink.flushFault with
      | none =>
        obtain rfl : found = fault := by simpa [Exec.flush, hflush, halted?] using h
        obtain ⟨task, m'', -, hraises⟩ := raised_of_script Halt.noConfusion ⟨m', hrun⟩
        obtain ⟨_, heq, hdynamic⟩ := hraises.dynamic
        cases heq
        exact hdynamic
      | some message =>
        obtain rfl : .output message = fault := by simpa [Exec.flush, hflush, halted?] using h
        rfl

namespace Session

variable {session : Session} {source : List UInt8} {fuel : Nat}

/-- A unit is run: no static fault is marked, and it has none itself. -/
def Executes (session : Session) (source : List UInt8) : Prop :=
  session.ledger.hadStatic = false ∧ session.Faultless source

/-- The fault that running the statements of a unit ends with, if there is one. -/
def runFaults (fuel : Nat) (session : Session) (source : List UInt8) : List Fault :=
  match halted? (ScriptLang.interpret fuel (session.script source).statements
      (session.bound source)) with
  | some (.fault fault) => [fault]
  | _ => []

/-- The faults of reading a unit: first the lexical ones, then the grammatical ones. -/
def readFaults (session : Session) (source : List UInt8) : List Fault :=
  faultsOf (ScriptLang.scan source) ++ (session.script source).faults

/-- The faults that a unit reports. If it is read without faults, and none is marked, its names are
bound; and if there are no faults then either, it is run. -/
def reports (fuel : Nat) (session : Session) (source : List UInt8) : List Fault :=
  if session.ledger.hadStatic = false ∧ session.readFaults source = [] then
    if (session.binding source).2 = [] then session.runFaults fuel source
    else (session.binding source).2
  else session.readFaults source

theorem readFaults_eq_nil : session.readFaults source = [] ↔
    faultsOf (ScriptLang.scan source) = [] ∧ (session.script source).faults = [] :=
  List.append_eq_nil_iff

theorem ledger_parse (session : Session) (source : List UInt8) :
    (session.parse source).2.ledger = session.ledger.reportAll (session.readFaults source) := by
  rw [readFaults, Ledger.reportAll_append]
  rfl

theorem ledgerAfter_eq (ledger : Ledger) (fuel : Nat) (session : Session) (source : List UInt8) :
    ledgerAfter ledger (halted? (ScriptLang.interpret fuel (session.script source).statements
      (session.bound source))) = ledger.reportAll (session.runFaults fuel source) := by
  unfold runFaults
  cases halted? (ScriptLang.interpret fuel (session.script source).statements
      (session.bound source)) with
  | none => rfl
  | some halt => cases halt <;> rfl

/-- A unit does nothing to the ledger but report its faults. -/
theorem ledger_run (fuel : Nat) (session : Session) (source : List UInt8) :
    (session.run fuel source).2.ledger =
      session.ledger.reportAll (session.reports fuel source) := by
  unfold reports
  split
  · rename_i hread
    obtain ⟨hstatic, hread⟩ := hread
    obtain ⟨hlexical, hgrammar⟩ := readFaults_eq_nil.mp hread
    split
    · rename_i hbinding
      rw [run_of_faultless fuel hstatic ⟨hlexical, hgrammar, hbinding⟩, interpret_eq]
      exact ledgerAfter_eq session.ledger fuel session source
    · rename_i hbinding
      have hparse := hadStatic_parse.mpr ⟨⟨hstatic, hlexical⟩, hgrammar⟩
      have hresolve := mt (hadStatic_resolve hgrammar).mp fun h => hbinding h.2
      have hledger : ((session.parse source).2.resolve (session.script source).statements).ledger =
          (session.parse source).2.ledger.reportAll (session.binding source).2 := rfl
      rw [run_eq]
      dsimp only
      rw [if_neg (by simp [hparse]), if_pos (by simpa using hresolve), hledger, ledger_parse, hread]
      rfl
  · rename_i hread
    have hparse : (session.parse source).2.ledger.hadStatic = true := by
      rw [← Bool.not_eq_false, hadStatic_parse]
      rintro ⟨⟨hstatic, hlexical⟩, hgrammar⟩
      exact hread ⟨hstatic, readFaults_eq_nil.mpr ⟨hlexical, hgrammar⟩⟩
    rw [run_eq]
    dsimp only
    rw [if_pos hparse, ledger_parse]

/-! ## 3. Operations -/

/-- What can be done with a session. -/
inductive Operation where
  | scan (source : List UInt8)
  | parse (source : List UInt8)
  | run (fuel : Nat) (source : List UInt8)
  | runLine (fuel : Nat) (source : List UInt8)
  | drain
  | resetStatic
  | report (fault : Fault)

/-- The session after an operation. -/
def perform (session : Session) : Operation → Session
  | .scan source => (session.scan source).2
  | .parse source => (session.parse source).2
  | .run fuel source => (session.run fuel source).2
  | .runLine fuel source => (session.runLine fuel source).2
  | .drain => { session with ledger := session.ledger.drain.2 }
  | .resetStatic => { session with ledger := session.ledger.resetStatic }
  | .report fault => { session with ledger := session.ledger.report fault }

/-- The session after some operations. -/
def performAll (session : Session) (operations : List Operation) : Session :=
  operations.foldl perform session

/-- The session with a wiped static mark, in which a line is run. -/
def wiped (session : Session) : Session :=
  { session with ledger := session.ledger.resetStatic }

/-- The log of an operation. -/
def entries (session : Session) : Operation → List Entry
  | .scan source => (faultsOf (ScriptLang.scan source)).map .reported
  | .parse source => (session.readFaults source).map .reported
  | .run fuel source => (session.reports fuel source).map .reported
  | .runLine fuel source => .reset :: (session.wiped.reports fuel source).map .reported
  | .drain => [.drained]
  | .resetStatic => [.reset]
  | .report fault => [.reported fault]

/-- The log of some operations, one after the other. -/
def log (session : Session) : List Operation → List Entry
  | [] => []
  | operation :: later => session.entries operation ++ (session.perform operation).log later

/-- What an operation does to the ledger is in its log. -/
theorem ledger_perform (session : Session) (operation : Operation) :
    (session.perform operation).ledger = session.ledger.replay (session.entries operation) := by
  cases operation with
  | scan source =>
    rw [entries, Ledger.replay_reported]
    rfl
  | parse source =>
    rw [entries, Ledger.replay_reported]
    exact ledger_parse session source
  | run fuel source =>
    rw [entries, Ledger.replay_reported]
    exact ledger_run fuel session source
  | runLine fuel source =>
    have hreplay : session.ledger.replay (session.entries (.runLine fuel source)) =
        session.wiped.ledger.replay ((session.wiped.reports fuel source).map .reported) := rfl
    rw [hreplay, Ledger.replay_reported]
    exact ledger_run fuel session.wiped source
  | drain | resetStatic | report => rfl

theorem ledger_performAll (session : Session) (operations : List Operation) :
    (session.performAll operations).ledger = session.ledger.replay (session.log operations) := by
  induction operations generalizing session with
  | nil => rfl
  | cons operation later ih =>
    rw [performAll, List.foldl_cons, ← performAll, ih, log, Ledger.replay_append, ledger_perform]

/-! ## 4. The status of a unit -/

/-- A unit that is run reports at most the fault it ends with, and leaves the static mark unset. -/
theorem Executes.run (h : session.Executes source) (fuel : Nat) :
    (session.run fuel source).2.ledger.hadStatic = false ∧
    ((∃ fault, halted? (ScriptLang.interpret fuel (session.script source).statements
        (session.bound source)) = some (.fault fault) ∧ fault.isStatic = false ∧
        (session.run fuel source).1 = .runtimeFault ∧
        (session.run fuel source).2.ledger.faults = session.ledger.faults ++ [fault]) ∨
      ((session.run fuel source).1 = .ok ∨ (session.run fuel source).1 = .unfinished) ∧
        (session.run fuel source).2.ledger.faults = session.ledger.faults) := by
  rw [run_of_faultless fuel h.1 h.2, interpret_eq]
  dsimp only
  cases hhalted : halted? (ScriptLang.interpret fuel (session.script source).statements
      (session.bound source)) with
  | none => exact ⟨h.1, .inr ⟨.inl rfl, rfl⟩⟩
  | some halt =>
    cases halt with
    | outOfFuel => exact ⟨h.1, .inr ⟨.inr rfl, rfl⟩⟩
    | fault fault =>
      have hdynamic := isStatic_of_interpret hhalted
      refine ⟨?_, .inl ⟨fault, rfl, hdynamic, rfl, rfl⟩⟩
      simp [ledgerAfter, Ledger.report, h.1, hdynamic]

theorem hadStatic_of_not_executes (h : ¬ session.Executes source) (fuel : Nat) :
    (session.run fuel source).2.ledger.hadStatic = true := by
  rw [run_eq]
  dsimp only
  cases hparse : (session.parse source).2.ledger.hadStatic with
  | true =>
    rw [if_pos rfl]
    exact hparse
  | false =>
    obtain ⟨⟨hstatic, hlexical⟩, hgrammar⟩ := hadStatic_parse.mp hparse
    have hresolve : ((session.parse source).2.resolve
        (session.script source).statements).ledger.hadStatic = true := by
      rw [← Bool.not_eq_false, hadStatic_resolve hgrammar]
      exact fun hbinding => h ⟨hstatic, hlexical, hgrammar, hbinding.2⟩
    rw [if_neg (by simp), if_pos hresolve]
    exact hresolve

/-- How the status of a unit, the static mark and the faults it adds belong together. -/
structure Tells (fuel : Nat) (session : Session) (source : List UInt8) (status : Status)
    (later : Session) : Prop where
  staticFault : status = .staticFault ↔ later.ledger.hadStatic = true
  nothingRun : status = .staticFault → (∀ task m, ¬ session.Performs fuel source task m) ∧
    ∃ hops, later.machine = { session.machine with hops := hops }
  run : session.Executes source → later.machine =
    (ScriptLang.interpret fuel (session.script source).statements).left (session.bound source)
  runtimeFault : status = .runtimeFault ↔ session.Executes source ∧
    ∃ fault, fault.isStatic = false ∧ later.ledger.faults = session.ledger.faults ++ [fault]
  ok : status ≠ .unfinished → (status = .ok ↔ session.Executes source ∧
    later.ledger.faults = session.ledger.faults)

/-- Of a unit that is run. -/
theorem Executes.tells (h : session.Executes source) (fuel : Nat) :
    Tells fuel session source (session.run fuel source).1 (session.run fuel source).2 := by
  obtain ⟨hmark, hends⟩ := h.run fuel
  have hmachine := machine_of_faultless fuel h.1 h.2
  rcases hends with ⟨fault, -, hdynamic, hstatus, hfaults⟩ | ⟨hstatus | hstatus, hfaults⟩
  · refine ⟨?_, ?_, fun _ => hmachine, ?_, ?_⟩
    · simp [hstatus, hmark]
    · simp [hstatus]
    · exact ⟨fun _ => ⟨h, fault, hdynamic, hfaults⟩, fun _ => hstatus⟩
    · simp [hstatus, hfaults]
  · refine ⟨?_, ?_, fun _ => hmachine, ?_, fun _ => ?_⟩
    · simp [hstatus, hmark]
    · simp [hstatus]
    · simp [hstatus, hfaults]
    · exact ⟨fun _ => ⟨h, hfaults⟩, fun _ => hstatus⟩
  · refine ⟨?_, ?_, fun _ => hmachine, ?_, fun hends => absurd hstatus hends⟩
    · simp [hstatus, hmark]
    · simp [hstatus]
    · simp [hstatus, hfaults]

/-- Of a unit that is not run. -/
theorem tells_of_not_executes (h : ¬ session.Executes source) (fuel : Nat) :
    Tells fuel session source (session.run fuel source).1 (session.run fuel source).2 := by
  obtain ⟨hstatus, -, hmachine⟩ := run_of_faulty fuel h
  have hmark := hadStatic_of_not_executes h fuel
  refine ⟨?_, fun _ => ⟨?_, ?_⟩, fun hruns => absurd hruns h, ?_, ?_⟩
  · simp [hstatus, hmark]
  · rintro task m ⟨hstatic, hfaultless, -⟩
    exact h ⟨hstatic, hfaultless⟩
  · rcases hmachine with hmachine | ⟨-, hmachine⟩
    · exact ⟨_, hmachine⟩
    · exact ⟨_, hmachine⟩
  · simp [hstatus, h]
  · simp [hstatus, h]

/-- After any operations on a new session, the ledger tells what was reported. The runtime mark is
set if a fault that is not static was ever reported, the static mark if a static fault was reported
since the last reset, and the faults held are those reported since the last draining, without the
static ones from before the last reset, in the order in which they were reported.

Whatever is run next has a static fault exactly if the static mark is set afterwards, and then
nothing has been run. It ends with a runtime fault exactly if it was run and has added one fault,
which is not static; and, if it ends at all, it ends well exactly if it was run and has added
none. -/
theorem ledger_reflects_history (sink : Sink) (clock : Nat → Float) (operations : List Operation) :
    let session := (Session.start sink clock).performAll operations
    let log := (Session.start sink clock).log operations
    (session.ledger.hadRuntime = true ↔ Entry.EverDynamic log) ∧
    (session.ledger.hadStatic = true ↔ Entry.StaticSinceReset log) ∧
    session.ledger.faults = Entry.held log ∧
    ∀ fuel source,
      Tells fuel session source (session.run fuel source).1 (session.run fuel source).2 := by
  intro session log
  have hledger : session.ledger = Ledger.empty.replay log :=
    ledger_performAll (Session.start sink clock) operations
  refine ⟨?_, ?_, ?_, fun fuel source => ?_⟩
  · rw [hledger, Ledger.hadRuntime_replay]
    simp [Ledger.empty]
  · rw [hledger, Ledger.hadStatic_replay]
    simp [Ledger.empty]
  · rw [hledger, Ledger.faults_replay]
    rfl
  · by_cases hruns : session.Executes source
    · exact hruns.tells fuel
    · exact tells_of_not_executes hruns fuel

end Session

end ScriptLang
