/-
ScriptLang.Proofs.Machine.Places — the faults of a run point at tokens of the
trees that are run.

A fault at run time has the line of a token: of an operator, a name or a
keyword of the expression that is evaluated, or of the closing parenthesis of
the call that is made. The last one is handed on from the call expression to
the call and to what is entered (`Task.Pointing`); all other tokens stand in the
code that is run, and that is code of the script, wherever a closure that holds
it was made (`Discipline.formed`). So if the tokens of a script are good, its
faults point at good tokens (`places_script`), provided that printing does not
fail.
-/
import ScriptLang.Proofs.Machine.Discipline
import ScriptLang.Proofs.Tree.Formed

namespace ScriptLang

open Exec

variable {good : Token → Prop}

/-! ## 1. Well-formed code -/

/-- Only well-formed code may be run and come into the store. -/
def Discipline.formed (good : Token → Prop) : Discipline where
  name _ := True
  function closure := ∀ s ∈ closure.routine.body, s.Formed good
  method _ _ closure := ∀ s ∈ closure.routine.body, s.Formed good
  statement _ s := s.Formed good
  expression _ e := e.Formed good

theorem Expr.Formed.operand {e e' : Expr} (h : e.Formed good) (hmem : e' ∈ e.operands) :
    e'.Formed good := by
  cases h with
  | literal | read | self => cases hmem
  | group h | unary _ h | assign _ h | property h =>
    obtain rfl := List.mem_singleton.mp hmem
    exact h
  | binary _ hleft hright | logical _ hleft hright | setProperty hleft _ hright =>
    rcases List.mem_cons.mp hmem with rfl | hmem
    · exact hleft
    · obtain rfl := List.mem_singleton.mp hmem
      exact hright
  | call hcallee _ harguments =>
    rcases List.mem_cons.mp hmem with rfl | hmem
    · exact hcallee
    · exact harguments _ hmem

theorem Stmt.Formed.own {s : Stmt} {e : Expr} (h : s.Formed good) (hmem : e ∈ s.expressions) :
    e.Formed good := by
  cases h with
  | expression h | print h | ifThen h | ifElse h | loop h =>
    obtain rfl := List.mem_singleton.mp hmem
    exact h
  | var _ h | ret _ h => exact h e (Option.mem_toList.mp hmem)
  | block | function | classDecl => cases hmem

theorem Stmt.Formed.branch {s s' : Stmt} (h : s.Formed good) (hmem : s' ∈ s.branches) :
    s'.Formed good := by
  cases h with
  | ifThen _ _ h | loop _ _ h =>
    obtain rfl := List.mem_singleton.mp hmem
    exact h
  | ifElse _ _ hthen _ helse =>
    rcases List.mem_cons.mp hmem with rfl | hmem
    · exact hthen
    · obtain rfl := List.mem_singleton.mp hmem
      exact helse
  | expression | print | var | block | function | ret | classDecl => cases hmem

theorem Discipline.formed_lawful (good : Token → Prop) (H : Events) :
    (Discipline.formed good).Lawful H where
  operand h hmem := h.operand hmem
  own h hmem := h.own hmem
  branch h hmem := h.branch hmem
  block _ h hmem := by
    cases h with
    | block h => exact h _ hmem
  body _ h hmem := h _ hmem
  declared _ := trivial
  assigned _ := trivial
  parameter _ _ := trivial
  function _ h := by
    cases h with
    | function _ _ h => exact ⟨trivial, h⟩
  classDecl _ h := by
    cases h with
    | classDecl _ _ _ h => exact ⟨trivial, h⟩
  accessed _ _ _ h := h
  constructed _ _ h := h

/-! ## 2. Parentheses -/

/-- The parenthesis that the faults of a call point at is good. -/
def Task.Pointing (good : Token → Prop) : Task → Prop
  | .call _ paren _ => good paren
  | .enter _ paren _ => good paren
  | _ => True

section Pointing

variable {H : Events} {fuel rest : Nat} {task task' : Task} {m m' : Machine}
variable {statements : List Stmt}

/-- A parenthesis comes from the expression of the call, and goes on to what is entered. -/
theorem Asks.pointing (hask : Asks fuel task m task' m')
    (hallowed : (Discipline.formed good).Allows m.frame task) (h : task.Pointing good) :
    task'.Pointing good := by
  cases hask with
  | call =>
    cases hallowed with
    | call _ hparen => exact hparen.good
  | enter => exact h
  | _ => trivial

theorem Undertakes.pointing (hundertakes : Undertakes fuel task m rest task' m')
    (hready : (Discipline.formed good).Ready H fuel task m) (h : task.Pointing good) :
    task'.Pointing good := by
  induction hundertakes with
  | here => exact h
  | step hask _ ih =>
    have hchild := Discipline.between (Discipline.formed_lawful good H) hready (.step hask .here)
    exact ih hchild.ready (hask.pointing hready.allowed h)

/-- What is begun while a script of good tokens runs is well-formed and points at good tokens. -/
theorem ScriptUndertakes.pointing (hundertakes : ScriptUndertakes fuel statements m rest task m')
    (hready : (Discipline.formed good).ScriptReady H fuel statements m) : task.Pointing good := by
  induction hundertakes with
  | now hundertakes => exact hundertakes.pointing hready.head trivial
  | later hdone _ ih => exact ih (hready.tail (Discipline.formed_lawful good H) hdone).2

end Pointing

/-! ## 3. Printing -/

/-- A sink that takes everything and can be flushed. -/
structure Sink.Unfailing (sink : Sink) : Prop where
  capacity : sink.capacity = none
  flushFault : sink.flushFault = none

section Printing

variable {fuel : Nat} {task task' : Task} {m m' : Machine} {statements : List Stmt}

theorem Restored.unfailing (h : Restored m m') (hsink : m.sink.Unfailing) : m'.sink.Unfailing := by
  obtain ⟨store, written, readings, rfl⟩ := h
  exact ⟨hsink.capacity, hsink.flushFault⟩

theorem Asks.unfailing (h : Asks fuel task m task' m') (hsink : m.sink.Unfailing) :
    m'.sink.Unfailing := by
  cases h.moves with
  | stays hrestored => exact hrestored.unfailing hsink
  | call | block | body => exact hsink

theorem Visits.unfailing (h : Visits fuel task m task' m') (hsink : m.sink.Unfailing) :
    m'.sink.Unfailing := by
  induction h with
  | here => exact hsink
  | step hask _ ih => exact ih (hask.unfailing hsink)

theorem ScriptVisits.unfailing (h : ScriptVisits fuel statements m task m')
    (hsink : m.sink.Unfailing) : m'.sink.Unfailing := by
  induction h with
  | now hvisits => exact hvisits.unfailing hsink
  | later hfirst _ ih => exact ih (((restores fuel (.execute _)).ok hfirst).unfailing hsink)

theorem not_fails_printLine {value : Value} {halt : Halt} (hsink : m.sink.Unfailing) :
    ¬ Fails (printLine value) m halt := by
  rintro ⟨m', h⟩
  simp [printLine, Sink.write, hsink.capacity] at h

end Printing

/-! ## 4. Faults -/

/-- A fault at run time that has the line of a good token. -/
def PlacedAt (good : Token → Prop) (halt : Halt) : Prop :=
  ∃ t cause, good t ∧ halt = .fault (.runtime t.line cause)

/-- A task that is well-formed and points at good tokens raises faults at good tokens only. -/
theorem Raises.places {task : Task} {m : Machine} {halt : Halt} (h : Raises task m halt)
    (hallowed : (Discipline.formed good).Allows m.frame task) (hpointing : task.Pointing good)
    (hsink : m.sink.Unfailing) : PlacedAt good halt := by
  cases h with
  | @print fuel value _ shown m' _ hvalue h =>
    have hsink' := ((restores fuel (.evaluate value)).ok hvalue).unfailing hsink
    exact absurd h (not_fails_printLine hsink')
  | classDecl h =>
    cases hallowed with
    | classDecl hname => exact ⟨_, _, hname.good, eq_undefinedAt_of_declareClass h⟩
  | unary =>
    cases hallowed with
    | unary hoperator => exact ⟨_, _, hoperator.good, rfl⟩
  | binary =>
    cases hallowed with
    | binary hoperator => exact ⟨_, _, hoperator.good, rfl⟩
  | read h =>
    cases hallowed with
    | read hname => exact ⟨_, _, hname.good, eq_undefinedAt_of_readVariable h⟩
  | self h =>
    cases hallowed with
    | self hkeyword => exact ⟨_, _, hkeyword.good, eq_undefinedAt_of_readVariable h⟩
  | assign _ h =>
    cases hallowed with
    | assign hname => exact ⟨_, _, hname.good, eq_undefinedAt_of_writeVariable h⟩
  | property _ h =>
    cases hallowed with
    | property _ hname => exact ⟨_, _, hname.good, eq_undefinedProperty_of_readProperty h⟩
  | noProperties =>
    cases hallowed with
    | property _ hname => exact ⟨_, _, hname.good, rfl⟩
  | noFields =>
    cases hallowed with
    | setProperty _ hname => exact ⟨_, _, hname.good, rfl⟩
  | notCallable | arity | overflow => exact ⟨_, _, hpointing, rfl⟩
  | host h =>
    obtain ⟨message, rfl⟩ := eq_native_of_callHost h
    exact ⟨_, _, hpointing, rfl⟩

/-- A script of good tokens that fails on a machine whose closures are made of good tokens fails at
a good token. -/
theorem places_script {fuel : Nat} {statements : List Stmt} {m : Machine} {fault : Fault}
    (hformed : ∀ s ∈ statements, s.Formed good)
    (hgranted : Store.Granted (Discipline.formed good).toLicence m.store)
    (hsink : m.sink.Unfailing) (h : Fails (executeScript fuel statements) m (.fault fault)) :
    PlacedAt good (.fault fault) := by
  obtain ⟨task, m', hvisits, hraises⟩ := raised_of_script Halt.noConfusion h
  have hready : (Discipline.formed good).ScriptReady (fun _ _ _ => True) fuel statements m :=
    ⟨hformed, hgranted, fun _ => trivial⟩
  obtain ⟨rest, hundertakes⟩ := hvisits.undertakes
  have hbetween := Discipline.script_between (Discipline.formed_lawful good _) hready hundertakes
  exact hraises.places hbetween.ready.allowed (hundertakes.pointing hready) (hvisits.unfailing hsink)

/-- The same with the output flushed at the end. -/
theorem places_interpret {fuel : Nat} {statements : List Stmt} {m : Machine} {fault : Fault}
    (hformed : ∀ s ∈ statements, s.Formed good)
    (hgranted : Store.Granted (Discipline.formed good).toLicence m.store)
    (hsink : m.sink.Unfailing)
    (h : Fails (interpret fuel statements) m (.fault fault)) : PlacedAt good (.fault fault) := by
  have hscript : Fails (executeScript fuel statements) m (.fault fault) →
      PlacedAt good (.fault fault) := places_script hformed hgranted hsink
  refine hscript ?_
  obtain ⟨m', h⟩ := h
  unfold interpret at h
  have hrestores := restores_executeScript fuel statements
  cases hrun : executeScript fuel statements m with
  | ok _ m₁ =>
    have hsink₁ := (hrestores.ok hrun).unfailing hsink
    simp [hrun, flush, hsink₁.flushFault] at h
  | error halt m₁ =>
    have hsink₁ := (hrestores.error hrun).unfailing hsink
    cases halt with
    | outOfFuel => simp [hrun] at h
    | fault found =>
      simp only [hrun, flush, hsink₁.flushFault] at h
      cases h
      exact ⟨_, hrun⟩

end ScriptLang
