/-
ScriptLang.Proofs.Session.WellFormed — only well-formed code is ever run.

Reading builds well-formed trees, whatever it is given (`Proofs.Tree.Formed`).
Closures outlast the unit they were read in, so this is carried along in the
store as well: in every session all functions and all methods have well-formed
bodies (`HoldsFormed`), and what is begun while a unit runs is well formed.

Operators have faults for tokens that are none. By the above no run of any unit
gets to one of them (`only_wellFormed_code_runs`).
-/
import ScriptLang.Proofs.Session.HeapShape
import ScriptLang.Proofs.Session.Places

namespace ScriptLang

open Reference (halted?)
open Store (Granted)

/-! ## 1. Faults of operators that are none -/

/-- The causes that blame an operator for being none. -/
def RuntimeCause.BlamesOperator : RuntimeCause → Prop
  | .invalidUnary _ | .invalidBinary _ => True
  | _ => False

/-- A fault of a run that blames an operator for being none. -/
def Fault.BlamesOperator (fault : Fault) : Prop :=
  ∃ line cause, fault = .runtime line cause ∧ cause.BlamesOperator

section Operators

variable {good : Token → Prop} {operator : Token} {left right : Value} {cause : RuntimeCause}

theorem not_blamesOperator_unary (hoperator : Apt good [.bang, .minus] operator)
    (h : Operator.unary operator right = .error cause) : ¬ cause.BlamesOperator := by
  have hkind := hoperator.kind
  simp only [List.mem_cons, List.not_mem_nil, or_false] at hkind
  unfold Operator.unary at h
  rcases hkind with hkind | hkind
  · rw [hkind] at h
    cases h
  · cases right <;> simp only [hkind] at h <;> cases h <;> exact id

theorem not_blamesOperator_onNumbers {operation : Float → Float → Value}
    (h : Operator.onNumbers operation left right = .error cause) : ¬ cause.BlamesOperator := by
  unfold Operator.onNumbers at h
  split at h <;> cases h
  exact id

theorem not_blamesOperator_add (h : Operator.add left right = .error cause) :
    ¬ cause.BlamesOperator := by
  unfold Operator.add at h
  split at h <;> cases h
  exact id

theorem not_blamesOperator_binary (hoperator : Apt good binaryKinds operator)
    (h : Operator.binary operator left right = .error cause) : ¬ cause.BlamesOperator := by
  have hkind := hoperator.kind
  simp only [binaryKinds, List.mem_cons, List.not_mem_nil, or_false] at hkind
  unfold Operator.binary at h
  rcases hkind with hkind | hkind | hkind | hkind | hkind | hkind | hkind | hkind | hkind |
      hkind <;>
    simp only [hkind] at h
  -- equality and inequality take all values, a sum has its own operands, the others take numbers
  · cases h
  · cases h
  · exact not_blamesOperator_onNumbers h
  · exact not_blamesOperator_onNumbers h
  · exact not_blamesOperator_onNumbers h
  · exact not_blamesOperator_onNumbers h
  · exact not_blamesOperator_onNumbers h
  · exact not_blamesOperator_add h
  · exact not_blamesOperator_onNumbers h
  · exact not_blamesOperator_onNumbers h

/-- What is raised by a task of well-formed code blames no operator. -/
theorem Raises.not_blamesOperator {task : Task} {m : Machine} {fault : Fault}
    (h : Raises task m (.fault fault)) (hallowed : (Discipline.formed good).Allows m.frame task) :
    ¬ fault.BlamesOperator := by
  rintro ⟨line, cause, rfl, hblames⟩
  cases h with
  | print _ h =>
    obtain ⟨message, heq⟩ := eq_output_of_printLine h
    cases heq
  | classDecl h =>
    cases eq_undefinedAt_of_declareClass h
    exact hblames
  | unary _ herror =>
    cases hallowed with
    | unary hoperator => exact not_blamesOperator_unary hoperator herror hblames
  | binary _ _ herror =>
    cases hallowed with
    | binary hoperator => exact not_blamesOperator_binary hoperator herror hblames
  | read h | self h =>
    cases eq_undefinedAt_of_readVariable h
    exact hblames
  | assign _ h =>
    cases eq_undefinedAt_of_writeVariable h
    exact hblames
  | property _ h =>
    cases eq_undefinedProperty_of_readProperty h
    exact hblames
  | noProperties | noFields | notCallable | arity | overflow => exact hblames
  | host h =>
    obtain ⟨message, heq⟩ := eq_native_of_callHost h
    cases heq
    exact hblames

end Operators

namespace Session

variable {session : Session} {source : List UInt8} {fuel rest : Nat} {task : Task} {m : Machine}

/-! ## 2. The code in the store -/

/-- Whatever is read is well formed. -/
theorem formed_parse (tokens : List Token) (nextId : Nat) :
    ∀ s ∈ (Grammar.parse tokens nextId).statements, s.Formed fun _ => True :=
  (Grammar.parse_made (fun _ _ => trivial) trivial nextId).1.fact

/-- All functions and methods in the store have well-formed bodies. -/
def HoldsFormed (session : Session) : Prop :=
  Granted (Discipline.formed fun _ => True).toLicence session.machine.store

theorem HoldsFormed.scriptReady (h : HoldsFormed session) (fuel : Nat) (source : List UInt8) :
    (Discipline.formed fun _ => True).ScriptReady (fun _ _ _ => True) fuel
      (session.script source).statements (session.bound source) :=
  ⟨formed_parse _ _, h, fun _ => trivial⟩

theorem HoldsFormed.run (h : HoldsFormed session) (fuel : Nat) (source : List UInt8) :
    HoldsFormed (session.run fuel source).2 := by
  unfold HoldsFormed
  rcases machine_run fuel session source with ⟨hops, hmachine⟩ | ⟨-, -, hmachine⟩
  · rw [hmachine]
    exact h
  · rw [hmachine, left_interpret_store]
    have hready := h.scriptReady fuel source
    exact (Discipline.evolves_executeScript (Discipline.formed_lawful _ _) hready).granted
      hready.granted

theorem Reachable.holdsFormed (h : Reachable session) : HoldsFormed session := by
  induction h with
  | start sink clock => exact Machine.granted_start _ sink clock
  | ledger ledger _ ih => exact ih
  | parse source _ ih => exact ih
  | run fuel source _ ih => exact ih.run fuel source

/-- Whatever is begun while a unit runs is well formed. -/
theorem HoldsFormed.allows (h : HoldsFormed session)
    (hundertaken : session.Undertaken fuel source rest task m) :
    (Discipline.formed fun _ => True).Allows m.frame task :=
  (Discipline.script_between (Discipline.formed_lawful _ _) (h.scriptReady fuel source)
    hundertaken.2.2).ready.allowed

/-! ## 3. The faults of a unit -/

theorem HoldsFormed.not_blamesOperator_runFaults (h : HoldsFormed session) {fault : Fault}
    (hstatic : session.ledger.hadStatic = false) (hfaultless : session.Faultless source)
    (hfault : fault ∈ session.runFaults fuel source) : ¬ fault.BlamesOperator := by
  have hhalted : halted? (ScriptLang.interpret fuel (session.script source).statements
      (session.bound source)) = some (.fault fault) := by
    unfold runFaults at hfault
    split at hfault
    · rename_i hhalted
      rw [hhalted, List.mem_singleton.mp hfault]
    · cases hfault
  rintro ⟨line, cause, rfl, hblames⟩
  obtain ⟨task, m, hvisits, hraises⟩ :=
    raised_of_script Halt.noConfusion (fails_executeScript hhalted)
  obtain ⟨rest, hundertakes⟩ := hvisits.undertakes
  have hallowed := h.allows ⟨hstatic, hfaultless, hundertakes⟩
  exact hraises.not_blamesOperator hallowed ⟨line, cause, rfl, hblames⟩

theorem not_blamesOperator_of_isStatic {fault : Fault} (h : fault.isStatic = true) :
    ¬ fault.BlamesOperator := by
  rintro ⟨line, cause, rfl, -⟩
  cases h

theorem isStatic_of_mem_readFaults {fault : Fault} (h : fault ∈ session.readFaults source) :
    fault.isStatic = true := by
  rcases List.mem_append.mp h with hlexical | hgrammar
  · exact isStatic_of_mem_itemsFrom 1 (pieces source) fault hlexical
  · exact (Grammar.parse_grown _ _).2 fault hgrammar

/-- Static faults blame no operator, and the fault of a run does not either. -/
theorem HoldsFormed.not_blamesOperator_reports (h : HoldsFormed session) {fault : Fault}
    (hfault : fault ∈ session.reports fuel source) : ¬ fault.BlamesOperator := by
  unfold reports at hfault
  split at hfault
  · rename_i hread
    obtain ⟨hlexical, hgrammar⟩ := readFaults_eq_nil.mp hread.2
    split at hfault
    · rename_i hbinding
      exact h.not_blamesOperator_runFaults hread.1 ⟨hlexical, hgrammar, hbinding⟩ hfault
    · exact not_blamesOperator_of_isStatic
        (Binding.isStatic_of_mem_resolve (built_script hgrammar).2 fault hfault)
  · exact not_blamesOperator_of_isStatic (isStatic_of_mem_readFaults hfault)

/-- The statements that reading gives are well formed, of whatever tokens, with or without faults:
their operators are operators of their kind, the names in them are identifiers and the keyword of an
instance is `this`, and no branch and no loop body is itself a declaration. So in every session no
task that is begun, of whatever unit the code is, raises a fault that blames an operator for being
none, and no unit reports one. -/
theorem only_wellFormed_code_runs :
    (∀ tokens nextId, ∀ s ∈ (Grammar.parse tokens nextId).statements, s.Formed fun _ => True) ∧
    ∀ session, Reachable session → ∀ fuel source,
      (∀ rest task m fault, session.Undertaken fuel source rest task m →
        Raises task m (.fault fault) → ¬ fault.BlamesOperator) ∧
      ∀ fault ∈ (session.run fuel source).2.ledger.faults,
        fault ∈ session.ledger.faults ∨ ¬ fault.BlamesOperator := by
  refine ⟨formed_parse, fun session hreachable fuel source => ⟨?_, fun fault hfault => ?_⟩⟩
  · intro rest task m fault hundertaken hraises
    exact hraises.not_blamesOperator (hreachable.holdsFormed.allows hundertaken)
  · rw [ledger_run, Ledger.faults_reportAll] at hfault
    rcases List.mem_append.mp hfault with hold | hnew
    · exact .inl hold
    · exact .inr (hreachable.holdsFormed.not_blamesOperator_reports hnew)

/-- Tokens of which the first statement is broken: `print ; -a;`. -/
def brokenPrint : List Token :=
  [⟨.printWord, "print", none, 1⟩, ⟨.semicolon, ";", none, 1⟩, ⟨.minus, "-", none, 1⟩,
    ⟨.identifier, "a", none, 1⟩, ⟨.semicolon, ";", none, 1⟩]

/-- A unit that fails at an operator in a function. -/
def negatingFunction : List UInt8 := spelling "fun f(a)\x7breturn -a;\x7df(nil);"

theorem only_wellFormed_code_runs_negatingFunction :
    (∃ e, (Grammar.parse brokenPrint 0).statements = [.expression e] ∧
      (Grammar.parse brokenPrint 0).faults ≠ [] ∧ (Stmt.expression e).Formed fun _ => True) ∧
    Reachable (.start .unbounded (steadyClock 0)) ∧
    ∃ fault, ((Session.start .unbounded (steadyClock 0)).run 20
        negatingFunction).2.ledger.faults = [fault] ∧
      fault = .runtime 1 .operandNotNumber ∧ ¬ fault.BlamesOperator := by
  obtain ⟨hread, hrun⟩ := only_wellFormed_code_runs
  have hreachable := Reachable.start .unbounded (steadyClock 0)
  have hstatements : (Grammar.parse brokenPrint 0).statements =
      [.expression (.unary 1 ⟨.minus, "-", none, 1⟩ (.read 0 ⟨.identifier, "a", none, 1⟩))] := rfl
  have hfaults : ((Session.start .unbounded (steadyClock 0)).run 20
      negatingFunction).2.ledger.faults = [.runtime 1 .operandNotNumber] := by decide +kernel
  refine ⟨⟨_, hstatements, by decide +kernel, ?_⟩, hreachable, _, hfaults, rfl, ?_⟩
  · exact hread brokenPrint 0 _ (hstatements ▸ List.mem_singleton.mpr rfl)
  · have hnew := (hrun _ hreachable 20 negatingFunction).2 (.runtime 1 .operandNotNumber)
      (hfaults ▸ List.mem_singleton.mpr rfl)
    exact hnew.resolve_left List.not_mem_nil

end Session

end ScriptLang
