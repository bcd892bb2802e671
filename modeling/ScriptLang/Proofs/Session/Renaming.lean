/-
ScriptLang.Proofs.Session.Renaming — the name of a local variable is its own
affair.

In every session, a unit without static faults does the same as the unit in
which a local variable or a parameter has a name that occurs nowhere in it
(`rename_local`): its names are bound to the same distances, and with every
amount of fuel it prints the same and ends in the same way, with the same
fault. Variables of the same name elsewhere, in the unit or in the session,
make no difference. That the distances are the same says in particular that
just the mentions of this variable have got the new name, which nothing else has.

Both units are run on the reference evaluator, which looks variables up by
name. There the runs are the same up to spelling, and the machine agrees with
both of them.
-/
import ScriptLang.Proofs.Reference.Respelled
import ScriptLang.Proofs.Session.Reachable

namespace ScriptLang.Session

open Binding (Addressed Recorded PlacedAll RespelledAll)
open Reference (Agrees Slots halted? finalState)

variable {session : Session} {source : List UInt8} {statements : List Stmt}

/-! ## 1. Respelled units -/

/-- The names of a respelled unit are bound to the same distances, without faults. -/
theorem resolve_of_respelled (hfaultless : session.Faultless source)
    (h : RespelledAll Eq [] (session.script source).statements statements) :
    Binding.resolve statements session.machine.hops = ((session.binding source).1, []) := by
  obtain ⟨hhops, hfaults⟩ := Binding.resolve_respelled h session.machine.hops
  have hnone : (Binding.resolve (session.script source).statements session.machine.hops).2 = [] :=
    hfaultless.binding
  rw [hnone, List.length_nil, List.length_eq_zero_iff] at hfaults
  exact Prod.ext hhops hfaults

/-- They are bound on the machine on which the unit itself runs. -/
theorem resolve_parse_of_respelled (hfaultless : session.Faultless source)
    (h : RespelledAll Eq [] (session.script source).statements statements) :
    (session.parse source).2.resolve statements =
      ⟨session.bound source, session.ledger, (session.script source).nextId⟩ := by
  have hparts : (session.parse source).2.resolve statements =
      ⟨{ session.machine with hops := (Binding.resolve statements session.machine.hops).1 },
        ((session.ledger.reportAll (faultsOf (ScriptLang.scan source))).reportAll
          (session.script source).faults).reportAll
            (Binding.resolve statements session.machine.hops).2,
        (session.script source).nextId⟩ := rfl
  rw [hparts, resolve_of_respelled hfaultless h, hfaultless.lexical, hfaultless.grammar]
  rfl

/-- The mentions of a respelled unit are recorded in the same table. -/
theorem Settled.placed_respelled (h : Settled session) (hfaultless : session.Faultless source)
    (hrespelled : RespelledAll Eq [] (session.script source).statements statements) :
    PlacedAll (Recorded (session.binding source).1 (session.script source).nextId) []
      statements := by
  obtain ⟨hnumbered, -⟩ := built_script hfaultless.grammar
  have hbounds : ∀ m ∈ Stmt.mentionsAll statements,
      session.nextId ≤ m.id ∧ m.id < (session.script source).nextId := by
    intro m hm
    have hmem : m.id ∈ (Stmt.mentionsAll statements).map Mention.id := List.mem_map_of_mem hm
    rw [hrespelled.ids] at hmem
    obtain ⟨original, horiginal, hid⟩ := List.mem_map.mp hmem
    rw [← hid]
    exact hnumbered.bounds original horiginal
  have hresolve := resolve_of_respelled hfaultless hrespelled
  have hplaced := Binding.placed_of_resolve hrespelled.tidy (hrespelled.ids ▸ hnumbered.nodup)
    (fun m hm => (hbounds m hm).2) (fun m hm => h.unused m.id (hbounds m hm).1)
    (congrArg Prod.snd hresolve)
  rw [hresolve] at hplaced
  exact hplaced.mono fun _ _ _ hbound => hbound.toRecorded

/-- What can be seen of how two units end is the same. -/
structure EndsAlike (first second : Status × Session) : Prop where
  status : second.1 = first.1
  sink : second.2.machine.sink = first.2.machine.sink
  ledger : second.2.ledger = first.2.ledger

/-- The statements of a respelled unit end on the same machine as the unit does. -/
theorem Settled.endsAlike (h : Settled session) (hstatic : session.ledger.hadStatic = false)
    (hfaultless : session.Faultless source)
    (hrespelled : RespelledAll Eq [] (session.script source).statements statements)
    (fuel nextId : Nat) :
    EndsAlike (session.run fuel source)
      (interpret fuel ⟨session.bound source, session.ledger, nextId⟩ statements) := by
  obtain ⟨slots, r, hagrees⟩ := h.agrees
  -- On the reference evaluator the two runs end alike.
  obtain ⟨hhalted, others, hfinal, -⟩ :=
    Reference.interpret_respelled fuel hrespelled (hagrees.alike_self fun _ => rfl)
  rw [r.twin_own] at hhalted hfinal
  -- The machine runs each of them as the reference evaluator does.
  have hextended := Reference.extended_of_parse hfaultless.grammar h.unused
  have hrun := h.runsAs hstatic hfaultless fuel hagrees
  obtain ⟨hhalted', -, -, slots', hagrees'⟩ := hagrees.interpret fuel h.top
    (fun _ _ hold => (hextended.addressed hold).toRecorded) (fun _ _ hnew => hnew.hop)
    (h.placed_respelled hfaultless hrespelled)
  obtain ⟨slots₁, hagrees₁⟩ := hrun.agrees
  have hends := hhalted'.trans hhalted
  rw [interpret_eq]
  refine ⟨?_, ?_, ?_⟩
  · rw [hrun.status]
    exact congrArg statusOf hends
  · have hsink := hagrees'.sink
    rw [hfinal] at hsink
    exact hsink.symm.trans hagrees₁.sink
  · rw [hrun.ledger]
    exact congrArg (ledgerAfter session.ledger) hends

/-- A source that reads as a respelled unit is bound on the same machine and run there. -/
theorem run_of_respelled (hstatic : session.ledger.hadStatic = false)
    (hfaultless : session.Faultless source)
    (h : RespelledAll Eq [] (session.script source).statements statements) {other : List UInt8}
    (hlexical : faultsOf (ScriptLang.scan other) = []) (hgrammar : (session.script other).faults = [])
    (hstatements : (session.script other).statements = statements) (fuel : Nat) :
    session.run fuel other =
      interpret fuel ⟨session.bound source, session.ledger, (session.script other).nextId⟩
        statements := by
  have hbinding : session.binding other = ((session.binding source).1, []) := by
    rw [binding, hstatements]
    exact resolve_of_respelled hfaultless h
  have hother : session.Faultless other := ⟨hlexical, hgrammar, congrArg Prod.snd hbinding⟩
  rw [run_of_faultless fuel hstatic hother, bound, hbinding, hstatements]
  rfl

/-! ## 2. Renamed units -/

/-- Renaming a local variable or a parameter of a unit without static faults to a name that does
not occur in the unit does not change what the unit does: its mentions have the same identities
and the same hop counts, there are no faults in binding it, and with every amount of fuel it
writes the same and ends with the same status and the same faults, whether the renamed statements
are run themselves or a source that reads as these statements. Nothing needs to be known about the
output or the clock, and the new name may be that of a global variable of the session. -/
theorem rename_local (h : Reachable session) (hstatic : session.ledger.hadStatic = false)
    (hfaultless : session.Faultless source) {x y : String} {renamed : List Stmt}
    (hrenames : RenamesAll x y false (session.script source).statements renamed)
    (hnew : y ∉ Stmt.namesAll (session.script source).statements) (hself : y ≠ selfName) :
    (Stmt.mentionsAll renamed).map Mention.id =
        (Stmt.mentionsAll (session.script source).statements).map Mention.id ∧
      Binding.resolve renamed session.machine.hops = ((session.binding source).1, []) ∧
      (∀ fuel, EndsAlike (session.run fuel source)
        (((session.parse source).2.resolve renamed).interpret fuel renamed)) ∧
      ∀ other, faultsOf (ScriptLang.scan other) = [] → (session.script other).faults = [] →
        (session.script other).statements = renamed →
        ∀ fuel, EndsAlike (session.run fuel source) (session.run fuel other) := by
  have hsettled := h.settled
  obtain ⟨-, htidy⟩ := built_script hfaultless.grammar
  obtain ⟨t, ⟨hspelled, hkind⟩, hname⟩ := hrenames.declared htidy
  have hx : x ≠ selfName := hname ▸ hspelled.name hkind
  have hunused : Binding.Unused x y (Stmt.namesAll (session.script source).statements) :=
    fun name hmem hequal => absurd (hequal ▸ hmem) hnew
  have hrespelled : RespelledAll Eq [] (session.script source).statements renamed :=
    hrenames.respelled (fun _ => rfl) (hsettled.placed hfaultless) (.top hx hself []) (by simp)
      hunused
  refine ⟨hrespelled.ids, resolve_of_respelled hfaultless hrespelled, ?_, ?_⟩
  · intro fuel
    rw [resolve_parse_of_respelled hfaultless hrespelled]
    exact hsettled.endsAlike hstatic hfaultless hrespelled fuel _
  · intro other hlexical hgrammar hstatements fuel
    rw [run_of_respelled hstatic hfaultless hrespelled hlexical hgrammar hstatements]
    exact hsettled.endsAlike hstatic hfaultless hrespelled fuel _

/-- A unit in which a function is declared before its block hides the global variable that it
prints, by a local variable of some name. -/
def hidingUnit (inner : String) : List UInt8 :=
  spelling "var a;\x7bfun f()\x7bprint a;\x7dvar " ++ spelling inner ++ spelling "=f;" ++
    spelling inner ++ spelling "();\x7d"

/-- A name in this unit, and the parenthesis of its call. -/
def hidingName (lexeme : String) : Token := ⟨.identifier, lexeme, none, 1⟩

def hidingParen : Token := ⟨.rightParen, ")", none, 1⟩

/-- The statements of the unit. -/
def hidingStatements (inner : String) : List Stmt :=
  [.var (hidingName "a") none,
   .block
    [.function ⟨hidingName "f", [], [.print (.read 0 (hidingName "a"))]⟩,
     .var (hidingName inner) (some (.read 1 (hidingName "f"))),
     .expression (.call 3 (.read 2 (hidingName inner)) hidingParen [])]]

theorem rename_local_hidingUnit :
    let session := Session.start .unbounded (steadyClock 0)
    (Reachable session ∧ session.ledger.hadStatic = false ∧ session.Faultless (hidingUnit "a") ∧
      RenamesAll "a" "b" false (session.script (hidingUnit "a")).statements
        (session.script (hidingUnit "b")).statements ∧
      "b" ∉ Stmt.namesAll (session.script (hidingUnit "a")).statements ∧ "b" ≠ selfName) ∧
    ∀ fuel, EndsAlike (session.run fuel (hidingUnit "a")) (session.run fuel (hidingUnit "b")) := by
  intro session
  have hreachable : Reachable session := .start .unbounded (steadyClock 0)
  have hfaultless : session.Faultless (hidingUnit "a") :=
    ⟨by decide +kernel, by decide +kernel, by decide +kernel⟩
  have hread : (session.script (hidingUnit "a")).statements = hidingStatements "a" := by
    decide +kernel
  have hread' : (session.script (hidingUnit "b")).statements = hidingStatements "b" := by
    decide +kernel
  have hrenames : RenamesAll "a" "b" false (session.script (hidingUnit "a")).statements
      (session.script (hidingUnit "b")).statements := by
    rw [hread, hread']
    exact .later (.first (.block (.later (.here rfl))))
  have hnew : "b" ∉ Stmt.namesAll (session.script (hidingUnit "a")).statements := by
    rw [hread]
    decide
  obtain ⟨-, -, -, hsource⟩ := rename_local hreachable rfl hfaultless hrenames hnew (by decide)
  exact ⟨⟨hreachable, rfl, hfaultless, hrenames, hnew, by decide⟩,
    hsource (hidingUnit "b") (by decide +kernel) (by decide +kernel) rfl⟩

end ScriptLang.Session
