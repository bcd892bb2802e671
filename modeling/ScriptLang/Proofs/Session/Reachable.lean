/-
ScriptLang.Proofs.Session.Reachable — what is true of a session at all times.

A unit of source either runs, on the machine on which its names have been
bound, or it has a static fault and leaves at most unused hop counts behind
(`run_of_faultless`, `run_of_faulty`). So what holds between two units is an
invariant of sessions (`Settled`): the current frame is that of the globals,
identities not handed out have no hop counts, and the machine agrees with some
machine of the reference evaluator, in which every closure mirrors the scopes
in which it was declared.

From the invariant follows the main statement, about every unit of every
session: wherever a mention with a hop count is evaluated, the frame so many
links outward exists and has the variable (`mention_reaches_its_frame`).
-/
import ScriptLang.Proofs.Reference.Mirroring
import ScriptLang.Proofs.Reference.Scripts
import ScriptLang.Proofs.Tree.Equality
import ScriptLang.Session

namespace ScriptLang

open Binding (Addressed PlacedAll)
open Reference (Agrees Begins Extended Slots halted? finalState)

/-! ## 1. The static mark -/

theorem Ledger.hadStatic_reportAll (ledger : Ledger) (faults : List Fault) :
    (ledger.reportAll faults).hadStatic = (ledger.hadStatic || faults.any (·.isStatic)) := by
  induction faults generalizing ledger with
  | nil => simp [reportAll]
  | cons fault faults ih =>
    rw [reportAll, List.foldl_cons, ← reportAll, ih, report, List.any_cons, Bool.or_assoc]

/-- Static faults leave the mark unset only if there are none. -/
theorem Ledger.hadStatic_reportAll_eq_false {ledger : Ledger} {faults : List Fault}
    (hstatic : ∀ fault ∈ faults, fault.isStatic = true) :
    (ledger.reportAll faults).hadStatic = false ↔ ledger.hadStatic = false ∧ faults = [] := by
  rw [hadStatic_reportAll, Bool.or_eq_false_iff]
  refine and_congr_right fun _ => ?_
  cases faults with
  | nil => simp
  | cons fault faults => simp [hstatic fault List.mem_cons_self]

theorem isStatic_of_mem_itemsFrom (line : Nat) (ps : List Piece) :
    ∀ fault ∈ faultsOf (itemsFrom line ps), fault.isStatic = true := by
  induction ps generalizing line with
  | nil => simp [itemsFrom, faultsOf]
  | cons piece ps ih =>
    intro fault hfault
    rw [itemsFrom] at hfault
    unfold Piece.item? at hfault
    cases hlexeme : piece.lexeme with
    | blank | token => exact ih _ fault (by simpa [hlexeme, faultsOf] using hfault)
    | unterminated | unexpected =>
      simp only [hlexeme, faultsOf, List.filterMap_cons, List.mem_cons] at hfault
      rcases hfault with rfl | hrest
      · rfl
      · exact ih _ fault hrest

namespace Session

/-! ## 2. Units -/

variable {session : Session} {source : List UInt8}

/-- What is read from a unit. -/
def script (session : Session) (source : List UInt8) : Parsed :=
  Grammar.parse (tokensOf (ScriptLang.scan source)) session.nextId

/-- The hop counts after a unit, and the faults of binding it. -/
def binding (session : Session) (source : List UInt8) : HopTable × List Fault :=
  Binding.resolve (session.script source).statements session.machine.hops

/-- The machine on which a unit runs. -/
def bound (session : Session) (source : List UInt8) : Machine :=
  { session.machine with hops := (session.binding source).1 }

/-- A unit has no static faults. -/
structure Faultless (session : Session) (source : List UInt8) : Prop where
  lexical : faultsOf (ScriptLang.scan source) = []
  grammar : (session.script source).faults = []
  binding : (session.binding source).2 = []

/-- How a run that ended for a reason, if there was one, is told. -/
def statusOf : Option Halt → Status
  | none => .ok
  | some (.fault _) => .runtimeFault
  | some .outOfFuel => .unfinished

/-- The ledger after a run that ended for a reason, if there was one. -/
def ledgerAfter (ledger : Ledger) : Option Halt → Ledger
  | some (.fault fault) => ledger.report fault
  | _ => ledger

theorem interpret_eq (fuel : Nat) (session : Session) (statements : List Stmt) :
    session.interpret fuel statements =
      let run := ScriptLang.interpret fuel statements session.machine
      (statusOf (halted? run),
        ⟨finalState run, ledgerAfter session.ledger (halted? run), session.nextId⟩) := by
  unfold Session.interpret
  cases ScriptLang.interpret fuel statements session.machine with
  | ok _ m => rfl
  | error halt m => cases halt <;> rfl

/-- Reading leaves the static mark unset only if there are no faults. -/
theorem hadStatic_parse : (session.parse source).2.ledger.hadStatic = false ↔
    (session.ledger.hadStatic = false ∧ faultsOf (ScriptLang.scan source) = []) ∧
      (session.script source).faults = [] := by
  have hparse : (session.parse source).2.ledger =
      (session.ledger.reportAll (faultsOf (ScriptLang.scan source))).reportAll
        (session.script source).faults := rfl
  have hstatic : ∀ fault ∈ (session.script source).faults, fault.isStatic = true :=
    (Grammar.parse_grown _ _).2
  have hlexical : ∀ fault ∈ faultsOf (ScriptLang.scan source), fault.isStatic = true :=
    isStatic_of_mem_itemsFrom 1 (pieces source)
  rw [hparse, Ledger.hadStatic_reportAll_eq_false hstatic,
    Ledger.hadStatic_reportAll_eq_false hlexical]

/-- What is read without faults is built as trees are. -/
theorem built_script (hgrammar : (session.script source).faults = []) :
    Grammar.Phrase.Numbered Spelled session.nextId (session.script source).nextId
        (Stmt.mentionsAll (session.script source).statements) ∧
      Binding.TidyAll (Grammar.Phrase.GoodName Spelled) (session.script source).statements := by
  refine (Grammar.script_of_parse hgrammar).built fun t ht => ?_
  exact spelled_of_mem_scan ((List.takeWhile_sublist _).subset ht)

/-- Binding what was read without faults leaves the static mark unset only if it has none. -/
theorem hadStatic_resolve (hgrammar : (session.script source).faults = []) :
    ((session.parse source).2.resolve (session.script source).statements).ledger.hadStatic = false ↔
      (session.parse source).2.ledger.hadStatic = false ∧ (session.binding source).2 = [] := by
  obtain ⟨-, htidy⟩ := built_script hgrammar
  exact Ledger.hadStatic_reportAll_eq_false (Binding.isStatic_of_mem_resolve htidy)

theorem run_eq (fuel : Nat) : session.run fuel source =
    let read := (session.parse source).2
    let resolved := read.resolve (session.script source).statements
    if read.ledger.hadStatic then (.staticFault, read)
    else if resolved.ledger.hadStatic then (.staticFault, resolved)
    else resolved.interpret fuel (session.script source).statements := by
  rfl

/-- A unit without static faults is run on the machine on which its names are bound. -/
theorem run_of_faultless (fuel : Nat) (hstatic : session.ledger.hadStatic = false)
    (h : session.Faultless source) :
    session.run fuel source =
      interpret fuel ⟨session.bound source, session.ledger, (session.script source).nextId⟩
        (session.script source).statements := by
  have hparse := hadStatic_parse.mpr ⟨⟨hstatic, h.lexical⟩, h.grammar⟩
  have hresolve := (hadStatic_resolve h.grammar).mpr ⟨hparse, h.binding⟩
  have hledger : ((session.parse source).2.resolve (session.script source).statements).ledger =
      ((session.ledger.reportAll (faultsOf (ScriptLang.scan source))).reportAll
        (session.script source).faults).reportAll (session.binding source).2 := rfl
  rw [h.lexical, h.grammar, h.binding] at hledger
  rw [run_eq]
  dsimp only
  rw [if_neg (by simp [hparse]), if_neg (by simp [hresolve])]
  congr 1
  exact congrArg (Session.mk _ · _) hledger

/-- A unit that is not run leaves nothing behind but identities and, if it was read without
faults, hop counts. -/
theorem run_of_faulty (fuel : Nat)
    (h : ¬ (session.ledger.hadStatic = false ∧ session.Faultless source)) :
    (session.run fuel source).1 = .staticFault ∧
      (session.run fuel source).2.nextId = (session.script source).nextId ∧
      ((session.run fuel source).2.machine = session.machine ∨
        (session.script source).faults = [] ∧
          (session.run fuel source).2.machine = session.bound source) := by
  rw [run_eq]
  dsimp only
  cases hparse : (session.parse source).2.ledger.hadStatic with
  | true => exact ⟨rfl, rfl, .inl rfl⟩
  | false =>
    obtain ⟨⟨hstatic, hlexical⟩, hgrammar⟩ := hadStatic_parse.mp hparse
    have hresolve : ((session.parse source).2.resolve
        (session.script source).statements).ledger.hadStatic = true := by
      rw [← Bool.not_eq_false, hadStatic_resolve hgrammar]
      exact fun hbinding => h ⟨hstatic, hlexical, hgrammar, hbinding.2⟩
    rw [if_neg (by simp), if_pos hresolve]
    exact ⟨rfl, rfl, .inr ⟨hgrammar, rfl⟩⟩

/-! ## 3. Sessions -/

/-- The sessions that there are: new ones, and what units of source and any handling of the
ledger make of them. -/
inductive Reachable : Session → Prop where
  | start (sink : Sink) (clock : Nat → Float) : Reachable (.start sink clock)
  | ledger {session : Session} (ledger : Ledger) : Reachable session →
      Reachable { session with ledger := ledger }
  | parse {session : Session} (source : List UInt8) : Reachable session →
      Reachable (session.parse source).2
  | run {session : Session} (fuel : Nat) (source : List UInt8) : Reachable session →
      Reachable (session.run fuel source).2

/-- A line of an interactive session is a unit that starts with a wiped ledger. -/
theorem Reachable.runLine (h : Reachable session) (fuel : Nat) (source : List UInt8) :
    Reachable (session.runLine fuel source).2 :=
  (h.ledger session.ledger.resetStatic).run fuel source

/-- What holds between two units: the current frame is that of the globals, identities that have
not been handed out have no hop counts, and the machine agrees with one of the reference
evaluator. -/
structure Settled (session : Session) : Prop where
  top : session.machine.frame = session.machine.globals
  unused : ∀ id, session.nextId ≤ id → session.machine.hops.get? id = none
  agrees : ∃ slots r, Agrees (Addressed session.machine.hops session.nextId)
    ⟨slots, session.machine, r⟩

/-- New hop counts for new identities unsettle nothing. -/
theorem Settled.extend (h : Settled session) {nextId : Nat} {hops : HopTable}
    (hextended : Extended session.nextId session.machine.hops nextId hops) (ledger : Ledger) :
    Settled ⟨{ session.machine with hops := hops }, ledger, nextId⟩ := by
  obtain ⟨slots, r, hagrees⟩ := h.agrees
  refine ⟨h.top, hextended.unused, slots, r, ?_⟩
  exact hagrees.rebind (fun _ _ hold => hextended.addressed hold) fun _ _ hnew => hnew.hop

/-- Identities may be handed out without use. -/
theorem Settled.extended (h : Settled session) {nextId : Nat} (hle : session.nextId ≤ nextId) :
    Extended session.nextId session.machine.hops nextId session.machine.hops :=
  ⟨hle, fun _ _ => rfl, fun id hid => h.unused id (Nat.le_trans hle hid)⟩

/-- The mentions of a unit without faults are addressed on the machine on which it runs. -/
theorem Settled.placed (h : Settled session) (hfaultless : session.Faultless source) :
    PlacedAll (Addressed (session.binding source).1 (session.script source).nextId) []
      (session.script source).statements :=
  Reference.addressed_of_parse (fun _ ht => spelled_of_mem_scan ht) hfaultless.grammar h.unused
    hfaultless.binding

/-- What running a unit without faults gives, told by the run on the reference evaluator. -/
structure RunsAs (fuel : Nat) (session : Session) (source : List UInt8)
    (reference : EStateM.Result Halt Reference.Machine Unit) : Prop where
  status : (session.run fuel source).1 = statusOf (halted? reference)
  ledger : (session.run fuel source).2.ledger = ledgerAfter session.ledger (halted? reference)
  nextId : (session.run fuel source).2.nextId = (session.script source).nextId
  top : (session.run fuel source).2.machine.frame = (session.run fuel source).2.machine.globals
  hops : (session.run fuel source).2.machine.hops = (session.binding source).1
  agrees : ∃ slots, Agrees
    (Addressed (session.run fuel source).2.machine.hops (session.run fuel source).2.nextId)
    ⟨slots, (session.run fuel source).2.machine, finalState reference⟩

theorem Settled.runsAs (h : Settled session) (hstatic : session.ledger.hadStatic = false)
    (hfaultless : session.Faultless source) {slots : Slots} {r : Reference.Machine} (fuel : Nat)
    (hagrees : Agrees (Addressed session.machine.hops session.nextId) ⟨slots, session.machine, r⟩) :
    RunsAs fuel session source (Reference.interpret fuel (session.script source).statements r) := by
  have hextended := Reference.extended_of_parse hfaultless.grammar h.unused
  obtain ⟨hhalted, htop, hhops, slots', hagrees'⟩ := hagrees.interpret fuel h.top
    (fun _ _ hold => hextended.addressed hold) (fun _ _ hnew => hnew.hop) (h.placed hfaultless)
  have hrun := (run_of_faultless fuel hstatic hfaultless).trans (interpret_eq ..)
  refine ⟨?_, ?_, ?_, ?_, ?_, slots', ?_⟩ <;> rw [hrun]
  · rw [← hhalted]
    rfl
  · rw [← hhalted]
    rfl
  · exact htop
  · exact hhops
  · dsimp only
    exact hhops.symm ▸ hagrees'

theorem Settled.run (h : Settled session) (fuel : Nat) (source : List UInt8) :
    Settled (session.run fuel source).2 := by
  by_cases hruns : session.ledger.hadStatic = false ∧ session.Faultless source
  · obtain ⟨hstatic, hfaultless⟩ := hruns
    obtain ⟨slots, r, hagrees⟩ := h.agrees
    have hrun := h.runsAs hstatic hfaultless fuel hagrees
    obtain ⟨slots', hagrees'⟩ := hrun.agrees
    refine ⟨hrun.top, ?_, slots', _, hagrees'⟩
    intro id hid
    rw [hrun.hops]
    rw [hrun.nextId] at hid
    exact (Reference.extended_of_parse hfaultless.grammar h.unused).unused id hid
  · obtain ⟨-, hnextId, hmachine⟩ := run_of_faulty fuel hruns
    rcases hafter : session.run fuel source with ⟨status, machine, ledger, nextId⟩
    rw [hafter] at hnextId hmachine
    obtain rfl : nextId = _ := hnextId
    rcases hmachine with hmachine | ⟨hgrammar, hmachine⟩
    · obtain rfl : machine = _ := hmachine
      exact h.extend (h.extended (Grammar.parse_grown _ _).1) ledger
    · obtain rfl : machine = _ := hmachine
      exact h.extend (Reference.extended_of_parse hgrammar h.unused) ledger

theorem Reachable.settled (h : Reachable session) : Settled session := by
  induction h with
  | start sink clock =>
    refine ⟨rfl, fun _ _ => rfl, fun _ _ => none, _, Reference.agrees_start sink clock ?_⟩
    exact fun _ _ hlt => absurd hlt.lt (by simp [Session.start])
  | ledger ledger _ ih => exact ⟨ih.top, ih.unused, ih.agrees⟩
  | parse source _ ih => exact ih.extend (ih.extended (Grammar.parse_grown _ _).1) _
  | run fuel source _ ih => exact ih.run fuel source

/-! ## 4. Mentions -/

/-- Running a unit, the evaluator comes to evaluate an expression on a machine. -/
def Evaluates (fuel : Nat) (session : Session) (source : List UInt8) (e : Expr) (m : Machine) :
    Prop :=
  session.ledger.hadStatic = false ∧ session.Faultless source ∧
    ScriptVisits fuel (session.script source).statements (session.bound source) (.evaluate e) m

/-- Whatever is visited while a unit runs is sound. -/
theorem Settled.begins (h : Settled session) (hfaultless : session.Faultless source) {fuel : Nat}
    {task : Task} {m : Machine}
    (hvisits : ScriptVisits fuel (session.script source).statements (session.bound source) task m) :
    Begins (Addressed (session.binding source).1 (session.script source).nextId) task m := by
  have hextended := Reference.extended_of_parse hfaultless.grammar h.unused
  obtain ⟨slots, r, hagrees⟩ := (h.extend hextended session.ledger).agrees
  exact Reference.begins_of_script hagrees h.top (h.placed hfaultless) hvisits

/-- The run of a script that ends with a fault about an undefined variable has ended with it
before flushing. -/
theorem fails_executeScript {fuel : Nat} {statements : List Stmt} {m : Machine} {line : Nat}
    {cause : RuntimeCause}
    (h : halted? (ScriptLang.interpret fuel statements m) = some (.fault (.runtime line cause))) :
    Fails (executeScript fuel statements) m (.fault (.runtime line cause)) := by
  unfold ScriptLang.interpret at h
  cases hrun : executeScript fuel statements m with
  | ok _ m' =>
    rw [hrun] at h
    cases hflush : m'.sink.flushFault <;> simp [Exec.flush, hflush, halted?] at h
  | error halt m' =>
    rw [hrun] at h
    cases halt with
    | outOfFuel => simp [halted?] at h
    | fault fault =>
      cases hflush : m'.sink.flushFault with
      | none =>
        obtain rfl : fault = .runtime line cause := by simpa [Exec.flush, hflush, halted?] using h
        exact ⟨m', hrun⟩
      | some message => simp [Exec.flush, hflush, halted?] at h

/-- The fault with which a unit ends is the last one in the ledger. -/
theorem halted?_of_getLast? {fuel : Nat} {fault : Fault}
    (hstatus : (session.run fuel source).1 = .runtimeFault)
    (hlast : (session.run fuel source).2.ledger.faults.getLast? = some fault) :
    session.ledger.hadStatic = false ∧ session.Faultless source ∧
      halted? (ScriptLang.interpret fuel (session.script source).statements
        (session.bound source)) = some (.fault fault) := by
  by_cases hruns : session.ledger.hadStatic = false ∧ session.Faultless source
  · obtain ⟨hstatic, hfaultless⟩ := hruns
    refine ⟨hstatic, hfaultless, ?_⟩
    rw [run_of_faultless fuel hstatic hfaultless, interpret_eq] at hstatus hlast
    dsimp only at hstatus hlast
    cases hhalted : halted? (ScriptLang.interpret fuel (session.script source).statements
        (session.bound source)) with
    | none => simp [hhalted, statusOf] at hstatus
    | some halt =>
      cases halt with
      | outOfFuel => simp [hhalted, statusOf] at hstatus
      | fault fault' =>
        rw [hhalted] at hlast
        obtain rfl : fault' = fault := by simpa [ledgerAfter, Ledger.report] using hlast
        rfl
  · rw [(run_of_faulty fuel hruns).1] at hstatus
    cases hstatus

/-- In every session, wherever a mention with a hop count is evaluated, so many links lead outward
from the current frame; and a variable that is read, or the instance, is bound in the frame they
lead to. So a unit that ends with a fault about an undefined variable has come by a mention that
has no hop count, and the fault is about it. -/
theorem mention_reaches_its_frame (h : Reachable session) (fuel : Nat) (source : List UInt8) :
    (∀ e m mention distance, session.Evaluates fuel source e m → e.mention? = some mention →
      m.hops.get? mention.id = some distance →
      ∃ frame, m.store.ancestor? distance m.frame = some frame ∧
        (mention.role ≠ .assign → (m.store.getHere? frame mention.token.lexeme).isSome = true)) ∧
    (∀ line cause, (session.run fuel source).1 = .runtimeFault →
      (session.run fuel source).2.ledger.faults.getLast? = some (.runtime line cause) →
      cause.kind = .undefinedVariable →
      ∃ e m mention, session.Evaluates fuel source e m ∧ e.mention? = some mention ∧
        m.hops.get? mention.id = none ∧ line = mention.token.line ∧
        cause = .undefinedVariable mention.token.lexeme) := by
  have hsettled := h.settled
  constructor
  · rintro e m mention distance ⟨-, hfaultless, hvisits⟩ hmention hdistance
    exact (hsettled.begins hfaultless hvisits).reached hmention hdistance
  · intro line cause hstatus hlast hkind
    obtain ⟨hstatic, hfaultless, hhalted⟩ := halted?_of_getLast? hstatus hlast
    obtain ⟨task, m, name, hvisits, hstumbles, hhalt⟩ :=
      traced_script fuel ⟨line, cause, rfl, hkind⟩ (fails_executeScript hhalted)
    obtain ⟨e, mention, rfl, hmention, rfl, hnone⟩ :=
      (hsettled.begins hfaultless hvisits).stumbles hstumbles
    cases hhalt
    exact ⟨e, m, mention, ⟨hstatic, hfaultless, hvisits⟩, hmention, hnone, rfl, rfl⟩

/-- A unit that reads a local variable. -/
def localReading : List UInt8 := spelling "\x7bvar a;a;\x7d"

/-- A unit that reads a global variable. -/
def globalReading : List UInt8 := spelling "a;"

theorem mention_reaches_its_frame_localReading :
    let session := Session.start .unbounded (steadyClock 0)
    let e := Expr.read 0 ⟨.identifier, "a", none, 1⟩
    Reachable session ∧
      (∃ m, session.Evaluates 4 localReading e m ∧ m.hops.get? 0 = some 0 ∧
        ∃ frame, m.store.ancestor? 0 m.frame = some frame ∧
          (m.store.getHere? frame "a").isSome = true) ∧
      (session.run 2 globalReading).1 = .runtimeFault ∧
      ∃ e m mention, session.Evaluates 2 globalReading e m ∧ e.mention? = some mention ∧
        m.hops.get? mention.id = none := by
  intro session e
  have hreachable : Reachable session := .start .unbounded (steadyClock 0)
  have hfaultless : session.Faultless localReading :=
    ⟨by decide +kernel, by decide +kernel, by decide +kernel⟩
  obtain ⟨m, hvisits, hdistance⟩ : ∃ m, ScriptVisits 4 (session.script localReading).statements
      (session.bound localReading) (.evaluate e) m ∧ m.hops.get? 0 = some 0 := by
    have hstatements : (session.script localReading).statements =
        [.block [.var ⟨.identifier, "a", none, 1⟩ none, .expression e]] := by
      decide +kernel
    rw [hstatements]
    exact ⟨_, .now (.step .block (.step (.next rfl) (.step .first (.step .expression .here)))),
      by decide +kernel⟩
  have hevaluates : session.Evaluates 4 localReading e m := ⟨rfl, hfaultless, hvisits⟩
  obtain ⟨frame, hframe, hbound⟩ :=
    (mention_reaches_its_frame hreachable 4 localReading).1 e m _ 0 hevaluates rfl hdistance
  have hstatus : (session.run 2 globalReading).1 = .runtimeFault := by decide +kernel
  obtain ⟨e', m', mention, hevaluates', hmention, hnone, -⟩ :=
    (mention_reaches_its_frame hreachable 2 globalReading).2 1 (.undefinedVariable "a") hstatus
      (by decide +kernel) rfl
  exact ⟨hreachable, ⟨m, hevaluates, hdistance, frame, hframe, hbound (by simp)⟩, hstatus,
    e', m', mention, hevaluates', hmention, hnone⟩

end Session

end ScriptLang
