/-
ScriptLang.Proofs.Reference.Scripts — lexical addressing is correct.

Between two scripts, a machine and a machine of the reference evaluator may
correspond (`Corresponds`). From corresponding machines, every script that is
read and bound without faults runs in the same way on both: with every amount
of fuel they print the same and end for the same reason, with corresponding
machines again, and so the one runs for ever exactly if the other does.
-/
import ScriptLang.Proofs.Binding.Bound
import ScriptLang.Proofs.Grammar.Acceptance
import ScriptLang.Proofs.Grammar.Trees
import ScriptLang.Proofs.Reference.Simulation
import ScriptLang.Proofs.Token.Pieces

namespace ScriptLang.Reference

open Binding (Scope PlacedAll Recorded Bound Addressed)

/-! ## 1. Runs -/

section Runs

variable {P : List Scope → Mention → Prop} {c : Config} {statements : List Stmt}

/-- A script runs in the same way on both sides, and the output is flushed in the same way. -/
theorem sim_interpret (fuel : Nat) (hagrees : Agrees P c) (hstands : c.Stands [] .top)
    (hplaced : PlacedAll P [] statements) :
    Sim P (some c.machine.frame) c (ScriptLang.interpret fuel statements)
      (interpret fuel statements) fun _ _ _ => True := by
  have h := sim_executeScript fuel hagrees hstands hplaced
  unfold Sim at h ⊢
  unfold ScriptLang.interpret interpret
  cases hx : ScriptLang.executeScript fuel statements c.machine with
  | ok a m =>
    cases hy : executeScript fuel statements c.reference with
    | ok b r =>
      rw [hx, hy] at h
      obtain ⟨slots, hagrees', hstep, -⟩ := h
      have hsink : r.sink = m.sink := hagrees'.sink
      cases hflush : m.sink.flushFault with
      | none =>
        simp only [ScriptLang.Exec.flush, Exec.flush, hsink, hflush]
        exact ⟨slots, hagrees', hstep, trivial⟩
      | some message =>
        simp only [ScriptLang.Exec.flush, Exec.flush, hsink, hflush]
        exact ⟨trivial, slots, hagrees', hstep⟩
    | error halt' r => rw [hx, hy] at h; exact h.elim
  | error halt m =>
    cases hy : executeScript fuel statements c.reference with
    | ok b r => rw [hx, hy] at h; exact h.elim
    | error halt' r =>
      rw [hx, hy] at h
      obtain ⟨rfl, slots, hagrees', hstep⟩ := h
      have hsink : r.sink = m.sink := hagrees'.sink
      cases halt' with
      | outOfFuel => exact ⟨rfl, slots, hagrees', hstep⟩
      | fault fault =>
        cases hflush : m.sink.flushFault with
        | none =>
          simp only [ScriptLang.Exec.flush, Exec.flush, hsink, hflush]
          exact ⟨trivial, slots, hagrees', hstep⟩
        | some message =>
          simp only [ScriptLang.Exec.flush, Exec.flush, hsink, hflush]
          exact ⟨trivial, slots, hagrees', hstep⟩

end Runs

/-- Why a run ended early, if it did. -/
def halted? {σ : Type} : EStateM.Result Halt σ Unit → Option Halt
  | .ok _ _ => none
  | .error halt _ => some halt

/-- The state a run ended in. -/
def finalState {σ : Type} : EStateM.Result Halt σ Unit → σ
  | .ok _ s => s
  | .error _ s => s

/-- What a comparison says about how two runs end. -/
theorem Sim.ending {P : List Scope → Mention → Prop} {current : Option Nat} {c : Config}
    {x : ScriptLang.Exec Unit} {y : Exec Unit} {Q : Config → Unit → Unit → Prop}
    (h : Sim P current c x y Q) :
    halted? (y c.reference) = halted? (x c.machine) ∧
      ∃ slots, Agrees P ⟨slots, finalState (x c.machine), finalState (y c.reference)⟩ ∧
        Step current c ⟨slots, finalState (x c.machine), finalState (y c.reference)⟩ := by
  unfold Sim at h
  cases hx : x c.machine with
  | ok a m =>
    cases hy : y c.reference with
    | ok b r =>
      rw [hx, hy] at h
      obtain ⟨slots, hagrees, hstep, -⟩ := h
      exact ⟨rfl, slots, hagrees, hstep⟩
    | error halt' r => rw [hx, hy] at h; exact h.elim
  | error halt m =>
    cases hy : y c.reference with
    | ok b r => rw [hx, hy] at h; exact h.elim
    | error halt' r =>
      rw [hx, hy] at h
      obtain ⟨rfl, slots, hagrees, hstep⟩ := h
      exact ⟨rfl, slots, hagrees, hstep⟩

/-! ## 2. Corresponding machines -/

/-- A machine and a machine of the reference evaluator correspond between two scripts. The next
script gets identities from `nextId` on, for which no hop counts are known yet. -/
structure Corresponds (nextId : Nat) (m : ScriptLang.Machine) (r : Machine) : Prop where
  top : m.frame = m.globals
  unused : ∀ id, nextId ≤ id → m.hops.get? id = none
  agrees : ∃ slots, Agrees (Recorded m.hops nextId) ⟨slots, m, r⟩

/-- The machine of the reference evaluator whose only global variable is the function `clock`. -/
def Machine.start (sink : Sink) (clock : Nat → Float) : Machine where
  store :=
    { globals := NameMap.empty.insert HostFunction.clock.name (.host 0)
      cells := #[]
      hosts := #[.clock]
      functions := #[]
      classes := #[]
      objects := #[] }
  depth := 0
  sink := sink
  clock := clock
  readings := 0

/-- New machines agree, whatever is to be known about mentions. -/
theorem agrees_start (sink : Sink) (clock : Nat → Float) {P : List Scope → Mention → Prop}
    (hP : ∀ S m, P S m → (HopTable.empty).get? m.id = S.findIdx? (·.contains m.token.lexeme)) :
    Agrees P ⟨fun _ _ => none, .start sink clock, .start sink clock⟩ := by
  have hgone : ∀ frame name, frame ≠ 0 →
      (ScriptLang.Machine.start sink clock).store.getHere? frame name = none := by
    intro frame name hne
    refine ScriptLang.Store.getHere?_of_le _ ?_ name
    exact Nat.one_le_iff_ne_zero.mpr hne
  refine ⟨⟨?_, rfl, fun _ => rfl, ?_, ?_, ?_⟩, ⟨rfl, rfl, rfl, ?_, rfl, ?_⟩, hP, rfl, rfl, rfl, rfl⟩
  · exact Nat.zero_lt_one
  · intro _ _ _ h
    exact absurd h (by simp)
  · intro _ _ _ _ _ h
    exact absurd h (by simp)
  · intro frame name hne _
    exact hgone frame name hne
  · intro id
    exact .none
  · intro id
    exact .none

theorem corresponds_start (sink : Sink) (clock : Nat → Float) :
    Corresponds 0 (.start sink clock) (.start sink clock) where
  top := rfl
  unused _ _ := rfl
  agrees := ⟨fun _ _ => none, agrees_start sink clock fun _ _ h => absurd h.lt (by simp)⟩

/-! ## 3. Binding a script -/

section Binding

variable {P Q : List Scope → Mention → Prop}

theorem ClosureAgrees.mono {globals : Nat} {slots : Slots} {s : ScriptLang.Store}
    {extra : List Scope} {closure : ScriptLang.Closure} {closure' : Closure}
    (h : ClosureAgrees P globals slots s extra closure closure') (himp : ∀ S m, P S m → Q S m) :
    ClosureAgrees Q globals slots s extra closure closure' := by
  obtain ⟨hroutine, hinit, S, hmirrors, hplaced, hhead⟩ := h
  exact ⟨hroutine, hinit, S, hmirrors, hplaced.mono fun S m _ => himp S m, hhead⟩

/-- States go on to agree when hop counts are added, if old mentions keep theirs. -/
theorem Agrees.rebind {slots : Slots} {m : ScriptLang.Machine} {r : Machine} {hops : HopTable}
    (h : Agrees P ⟨slots, m, r⟩) (himp : ∀ S m, P S m → Q S m)
    (haddressed : ∀ S m, Q S m → hops.get? m.id = S.findIdx? (·.contains m.token.lexeme)) :
    Agrees Q ⟨slots, { m with hops := hops }, r⟩ := by
  obtain ⟨hvariables, hheap, -, hdepth, hsink, hclock, hreadings⟩ := h
  refine ⟨hvariables, ⟨hheap.hosts, hheap.objects, hheap.functionCount, ?_, hheap.classCount, ?_⟩,
    haddressed, hdepth, hsink, hclock, hreadings⟩
  · intro id
    exact rel_imp (hheap.function id) fun _ _ hclosure => hclosure.mono himp
  · intro id
    exact rel_imp (hheap.classInfo id) fun _ _ hclass =>
      ⟨hclass.1, fun name => rel_imp (hclass.2 name) fun _ _ hclosure => hclosure.mono himp⟩

/-- A script that is bound on a machine runs there as the reference evaluator runs it, and the
machines agree again at the end. -/
theorem Agrees.interpret {slots : Slots} {m : ScriptLang.Machine} {r : Machine} {hops : HopTable}
    {statements : List Stmt} (fuel : Nat) (h : Agrees P ⟨slots, m, r⟩) (htop : m.frame = m.globals)
    (himp : ∀ S m, P S m → Q S m)
    (haddressed : ∀ S m, Q S m → hops.get? m.id = S.findIdx? (·.contains m.token.lexeme))
    (hplaced : PlacedAll Q [] statements) :
    let run := ScriptLang.interpret fuel statements { m with hops := hops }
    let reference := Reference.interpret fuel statements r
    halted? run = halted? reference ∧ (finalState run).frame = (finalState run).globals ∧
      (finalState run).hops = hops ∧
      ∃ slots', Agrees Q ⟨slots', finalState run, finalState reference⟩ := by
  intro run reference
  obtain ⟨hhalted, slots', hagrees, hstep⟩ :=
    (sim_interpret fuel (h.rebind himp haddressed) (Config.stands_top htop) hplaced).ending
  exact ⟨hhalted.symm, hstep.frame.trans (htop.trans hstep.globals.symm), hstep.hops, slots',
    hagrees⟩

end Binding

/-- What a new script may do to the hop counts: it adds some for the identities it was given. -/
structure Extended (nextId : Nat) (hops : HopTable) (nextId' : Nat) (hops' : HopTable) : Prop where
  le : nextId ≤ nextId'
  old : ∀ id, id < nextId → hops'.get? id = hops.get? id
  unused : ∀ id, nextId' ≤ id → hops'.get? id = none

namespace Extended

variable {nextId nextId' : Nat} {hops hops' : HopTable} {S : List Scope} {m : Mention}

/-- A recorded mention stays recorded. -/
theorem recorded (h : Extended nextId hops nextId' hops') (hold : Recorded hops nextId S m) :
    Recorded hops' nextId' S m where
  lt := Nat.lt_of_lt_of_le hold.lt h.le
  hop := (h.old m.id hold.lt).trans hold.hop

theorem addressed (h : Extended nextId hops nextId' hops') (hold : Addressed hops nextId S m) :
    Addressed hops' nextId' S m :=
  hold.grow h.le h.old

end Extended

section Parsed

variable {tokens : List Token} {nextId : Nat} {hops : HopTable}

/-- Binding a script that is read without faults adds hop counts for its own identities only,
whether there are faults in binding it or not. -/
theorem extended_of_parse (hparse : (Grammar.parse tokens nextId).faults = [])
    (hunused : ∀ id, nextId ≤ id → hops.get? id = none) :
    Extended nextId hops (Grammar.parse tokens nextId).nextId
      (Binding.resolve (Grammar.parse tokens nextId).statements hops).1 := by
  have hgood : Grammar.Phrase.Good (fun _ => True) (Grammar.words tokens) := fun _ _ => trivial
  obtain ⟨hnumbered, htidy⟩ := (Grammar.script_of_parse hparse).built hgood
  have hother : ∀ id, ¬ (nextId ≤ id ∧ id < (Grammar.parse tokens nextId).nextId) →
      (Binding.resolve (Grammar.parse tokens nextId).statements hops).1.get? id = hops.get? id := by
    intro id hid
    refine Binding.get?_resolve htidy ?_
    rintro m hm rfl
    exact hid (hnumbered.bounds m hm)
  refine ⟨hnumbered.le, fun id hid => hother id (by omega), ?_⟩
  intro id hid
  rw [hother id (by omega)]
  exact hunused id (Nat.le_trans hnumbered.le hid)

/-- A script that is read and bound without faults is in order, and its mentions are bound. -/
theorem bound_of_parse (hparse : (Grammar.parse tokens nextId).faults = [])
    (hunused : ∀ id, nextId ≤ id → hops.get? id = none)
    (hbind : (Binding.resolve (Grammar.parse tokens nextId).statements hops).2 = []) :
    PlacedAll
      (Bound (Binding.resolve (Grammar.parse tokens nextId).statements hops).1
        (Grammar.parse tokens nextId).nextId)
      [] (Grammar.parse tokens nextId).statements := by
  have hgood : Grammar.Phrase.Good (fun _ => True) (Grammar.words tokens) := fun _ _ => trivial
  obtain ⟨hnumbered, htidy⟩ := (Grammar.script_of_parse hparse).built hgood
  exact Binding.placed_of_resolve htidy hnumbered.nodup (fun m hm => (hnumbered.bounds m hm).2)
    (fun m hm => hunused m.id (hnumbered.bounds m hm).1) hbind

/-- If its words are spelled as words are, its mentions are addressed. -/
theorem addressed_of_parse (hspelled : ∀ t ∈ tokens, Spelled t)
    (hparse : (Grammar.parse tokens nextId).faults = [])
    (hunused : ∀ id, nextId ≤ id → hops.get? id = none)
    (hbind : (Binding.resolve (Grammar.parse tokens nextId).statements hops).2 = []) :
    PlacedAll
      (Addressed (Binding.resolve (Grammar.parse tokens nextId).statements hops).1
        (Grammar.parse tokens nextId).nextId)
      [] (Grammar.parse tokens nextId).statements := by
  have hgood : Grammar.Phrase.Good Spelled (Grammar.words tokens) :=
    fun t ht => hspelled t ((List.takeWhile_sublist _).subset ht)
  obtain ⟨hnumbered, htidy⟩ := (Grammar.script_of_parse hparse).built hgood
  have hready := (bound_of_parse hparse hunused hbind).instanceReady
    (fun t ht => ht.1.name ht.2) htidy fun _ h => absurd h (by simp)
  refine hready.mono ?_
  rintro S m hm ⟨hbound, hinstance⟩
  obtain ⟨hword, hkind⟩ := hnumbered.words m hm
  exact ⟨hbound, hinstance, fun hrole => hword.self (by rw [hkind, if_pos hrole])⟩

end Parsed

/-! ## 4. Lexical addressing -/

/-- From corresponding machines, a script that is read and bound without faults prints the same
and ends in the same way on both evaluators, with every amount of fuel, and leaves corresponding
machines; and it runs for ever on the one exactly if it does on the other. -/
theorem interpret_as_reference {nextId : Nat} {m : ScriptLang.Machine} {r : Machine}
    {tokens : List Token} (h : Corresponds nextId m r)
    (hparse : (Grammar.parse tokens nextId).faults = [])
    (hbind : (Binding.resolve (Grammar.parse tokens nextId).statements m.hops).2 = []) :
    let script := Grammar.parse tokens nextId
    let bound := { m with hops := (Binding.resolve script.statements m.hops).1 }
    let run := fun fuel => ScriptLang.interpret fuel script.statements bound
    let reference := fun fuel => interpret fuel script.statements r
    (∀ fuel, halted? (run fuel) = halted? (reference fuel) ∧
        (finalState (run fuel)).sink = (finalState (reference fuel)).sink ∧
        Corresponds script.nextId (finalState (run fuel)) (finalState (reference fuel))) ∧
      ((∀ fuel, halted? (run fuel) = some .outOfFuel) ↔
        ∀ fuel, halted? (reference fuel) = some .outOfFuel) := by
  intro script bound run reference
  obtain ⟨htop, hunused, slots, hagrees⟩ := h
  have hextended := extended_of_parse hparse hunused
  have hplaced := (bound_of_parse hparse hunused hbind).mono fun _ _ _ hbound => hbound.toRecorded
  have hboth : ∀ fuel, halted? (run fuel) = halted? (reference fuel) ∧
      (finalState (run fuel)).sink = (finalState (reference fuel)).sink ∧
      Corresponds script.nextId (finalState (run fuel)) (finalState (reference fuel)) := by
    intro fuel
    obtain ⟨hhalted, htop', hhops, slots', hagrees'⟩ := hagrees.interpret fuel htop
      (fun _ _ hold => hextended.recorded hold) (fun _ _ hnew => hnew.hop) hplaced
    refine ⟨hhalted, hagrees'.sink.symm, htop', ?_, slots', ?_⟩
    · intro id hid
      rw [hhops]
      exact hextended.unused id hid
    · rw [hhops]
      exact hagrees'
  exact ⟨hboth, forall_congr' fun fuel => by rw [(hboth fuel).1]⟩

/-- The words of a script in which a function is declared before its block hides the global
variable that it prints:

    var a; { fun f() { print a; } f(); var a = f; f(); }
-/
def hidingScript : List Token :=
  [⟨.varWord, "var", none, 1⟩, ⟨.identifier, "a", none, 1⟩, ⟨.semicolon, ";", none, 1⟩,
   ⟨.leftBrace, "\x7b", none, 1⟩, ⟨.funWord, "fun", none, 1⟩, ⟨.identifier, "f", none, 1⟩,
   ⟨.leftParen, "(", none, 1⟩, ⟨.rightParen, ")", none, 1⟩, ⟨.leftBrace, "\x7b", none, 1⟩,
   ⟨.printWord, "print", none, 1⟩, ⟨.identifier, "a", none, 1⟩, ⟨.semicolon, ";", none, 1⟩,
   ⟨.rightBrace, "\x7d", none, 1⟩, ⟨.identifier, "f", none, 1⟩, ⟨.leftParen, "(", none, 1⟩,
   ⟨.rightParen, ")", none, 1⟩, ⟨.semicolon, ";", none, 1⟩, ⟨.varWord, "var", none, 1⟩,
   ⟨.identifier, "a", none, 1⟩, ⟨.equal, "=", none, 1⟩, ⟨.identifier, "f", none, 1⟩,
   ⟨.semicolon, ";", none, 1⟩, ⟨.identifier, "f", none, 1⟩, ⟨.leftParen, "(", none, 1⟩,
   ⟨.rightParen, ")", none, 1⟩, ⟨.semicolon, ";", none, 1⟩, ⟨.rightBrace, "\x7d", none, 1⟩]

theorem interpret_as_reference_hidingScript :
    (Grammar.parse hidingScript 0).faults = [] ∧
      (Binding.resolve (Grammar.parse hidingScript 0).statements .empty).2 = [] ∧
      ∀ fuel, halted? (ScriptLang.interpret fuel (Grammar.parse hidingScript 0).statements
          { ScriptLang.Machine.start .unbounded (steadyClock 0) with
            hops := (Binding.resolve (Grammar.parse hidingScript 0).statements .empty).1 })
        = halted? (interpret fuel (Grammar.parse hidingScript 0).statements
          (.start .unbounded (steadyClock 0))) := by
  have hparse : (Grammar.parse hidingScript 0).faults = [] := by decide +kernel
  have hbind : (Binding.resolve (Grammar.parse hidingScript 0).statements .empty).2 = [] := by
    decide +kernel
  refine ⟨hparse, hbind, fun fuel => ?_⟩
  exact ((interpret_as_reference (corresponds_start .unbounded (steadyClock 0)) hparse hbind).1
    fuel).1

end ScriptLang.Reference
