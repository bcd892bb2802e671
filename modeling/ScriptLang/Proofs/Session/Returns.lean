/-
ScriptLang.Proofs.Session.Returns — a `return` unwinds exactly one call.

At the top level there is nothing to unwind: in a script without static faults
every `return` stands in a function or method, so none of its statements ends
with one (`execute_topLevel`). Everywhere else a `return` that is completed is the
last thing its activation does, and the call that it ends gives its value to
the expression that made it.

An initializer gives the instance it is bound to instead. In a session every
initializer that is called was bound to one, by an access or by a call of its
class (`Chronicle.holdsBound`).
-/
import ScriptLang.Proofs.Binding.Rules
import ScriptLang.Proofs.Machine.Activation
import ScriptLang.Proofs.Session.Instance

namespace ScriptLang

open Binding (admissible_of_clean resolve)
open Store (Granted)

/-! ## 1. The top level -/

section TopLevel

variable {script : List Stmt} {fuel : Nat}

/-- With an amount of fuel, statements in no function or method do not end with a `return`. -/
structure Unreturning (script : List Stmt) (fuel : Nat) : Prop where
  statement : ∀ {around s rest m value m'}, Row script around (s :: rest) → around.hosts = [] →
    execute fuel s m ≠ .ok (.returned value) m'
  statements : ∀ {around row m value m'}, Row script around row → around.hosts = [] →
    executeAll fuel row m ≠ .ok (.returned value) m'
  loop : ∀ {around condition body m value m'}, Row script around [body] → around.hosts = [] →
    executeLoop fuel condition body m ≠ .ok (.returned value) m'

theorem not_returned_execute (h : Admissible script) (ih : Unreturning script fuel)
    {around : Surroundings} {s : Stmt} {rest : List Stmt} (hrow : Row script around (s :: rest))
    (hhosts : around.hosts = []) {m m' : Machine} {value : Value} :
    execute (fuel + 1) s m ≠ .ok (.returned value) m' := by
  intro hrun
  cases s with
  | expression | print | var | function | classDecl => cases eq_normal_of_isPlain rfl hrun
  | block body =>
    rw [execute, get_bind] at hrun
    obtain ⟨inner, m₁, -, hrun⟩ := Exec.ok_of_bind hrun
    unfold Exec.inFrame at hrun
    split at hrun
    · rename_i hbody
      cases hrun
      exact ih.statements hrow.block hhosts hbody
    · cases hrun
  | ifThen condition thenBranch =>
    rw [execute] at hrun
    obtain ⟨value, m₁, -, hrun⟩ := Exec.ok_of_bind hrun
    split at hrun
    · exact ih.statement hrow.thenOnly hhosts hrun
    · cases hrun
  | ifElse condition thenBranch elseBranch =>
    rw [execute] at hrun
    obtain ⟨value, m₁, -, hrun⟩ := Exec.ok_of_bind hrun
    split at hrun
    · exact ih.statement hrow.thenBranch hhosts hrun
    · exact ih.statement hrow.elseBranch hhosts hrun
  | loop condition body =>
    rw [execute] at hrun
    exact ih.loop hrow.loop hhosts hrun
  | ret keyword value => exact h.ret around keyword value ⟨rest, hrow⟩ hhosts

theorem not_returned_executeLoop (ih : Unreturning script fuel) {around : Surroundings}
    {condition : Expr} {body : Stmt} (hrow : Row script around [body]) (hhosts : around.hosts = [])
    {m m' : Machine} {value : Value} :
    executeLoop (fuel + 1) condition body m ≠ .ok (.returned value) m' := by
  intro hrun
  rw [executeLoop] at hrun
  obtain ⟨tested, m₁, -, hrun⟩ := Exec.ok_of_bind hrun
  split at hrun
  · obtain ⟨flow, m₂, hbody, hrun⟩ := Exec.ok_of_bind hrun
    cases flow with
    | normal => exact ih.loop hrow hhosts hrun
    | returned returned => exact ih.statement hrow hhosts hbody
  · cases hrun

/-- In a script that keeps the static rules, no statement outside of functions and methods ends with
a `return`. -/
theorem unreturning (h : Admissible script) (fuel : Nat) : Unreturning script fuel := by
  induction fuel with
  | zero =>
    refine ⟨fun _ _ hrun => ?_, fun _ _ hrun => ?_, fun _ _ hrun => ?_⟩
    · cases hrun
    · cases hrun
    · cases hrun
  | succ fuel ih =>
    refine ⟨fun hrow hhosts => not_returned_execute h ih hrow hhosts,
      fun {around row m value m'} hrow hhosts hrun => ?_,
      fun hrow hhosts => not_returned_executeLoop ih hrow hhosts⟩
    cases row with
    | nil => cases hrun
    | cons s rest =>
      rw [executeAll] at hrun
      obtain ⟨flow, m₁, hfirst, hrun⟩ := Exec.ok_of_bind hrun
      cases flow with
      | normal => exact ih.statements hrow.rest hhosts hrun
      | returned returned => exact ih.statement hrow hhosts hfirst

/-- A statement of a script stands outside of all functions and methods. -/
theorem exists_row_of_mem {s : Stmt} (h : s ∈ script) :
    ∃ around rest, around.hosts = [] ∧ Row script around (s :: rest) := by
  have hrows : ∀ {around row}, around.hosts = [] → Row script around row → s ∈ row →
      ∃ around rest, around.hosts = [] ∧ Row script around (s :: rest) := by
    intro around row hhosts hrow hmem
    induction row generalizing around with
    | nil => cases hmem
    | cons first rest ih =>
      rcases List.mem_cons.mp hmem with rfl | hmem
      · exact ⟨around, rest, hhosts, hrow⟩
      · have hdeclared : (around.declare first.declares).hosts = [] := hhosts
        exact ih hdeclared hrow.rest hmem
  exact hrows rfl .script h

/-- A top-level statement of a script without static faults ends normally or fails. -/
theorem execute_topLevel {hops : HopTable} (hclean : (resolve script hops).2 = []) {s : Stmt}
    (hs : s ∈ script) (fuel : Nat) (m : Machine) :
    (∃ m', execute fuel s m = .ok .normal m') ∨ ∃ halt m', execute fuel s m = .error halt m' := by
  obtain ⟨around, rest, hhosts, hrow⟩ := exists_row_of_mem hs
  have hnot : ∀ value m', execute fuel s m ≠ .ok (.returned value) m' := fun _ _ =>
    (unreturning (admissible_of_clean hclean) fuel).statement hrow hhosts
  cases hrun : execute fuel s m with
  | error halt m' => exact .inr ⟨halt, m', rfl⟩
  | ok flow m' =>
    cases flow with
    | normal => exact .inl ⟨m', rfl⟩
    | returned value => exact absurd hrun (hnot value m')

end TopLevel

namespace Session

variable {session : Session} {source : List UInt8} {H : Events} {fuel rest : Nat} {task : Task}
variable {m m' : Machine}

/-! ## 2. Initializers -/

/-- The initializers in the store are bound to instances. -/
def HoldsBound (session : Session) (H : Events) : Prop :=
  Granted (Discipline.bindsInitializers H).toLicence session.machine.store

theorem HoldsBound.mono {H' : Events} (h : HoldsBound session H)
    (hsub : ∀ {fuel task m}, H fuel task m → H' fuel task m) : HoldsBound session H' := by
  refine Granted.mono h (fun closure hbound hinit => ?_) fun _ _ _ hname => hname
  obtain ⟨object, hacts⟩ := hbound hinit
  exact ⟨object, hacts.mono hsub⟩

/-- A unit is ready to be run. -/
theorem HoldsBound.scriptReady (h : HoldsBound session H) (fuel : Nat)
    (hstatic : session.ledger.hadStatic = false) (hfaultless : session.Faultless source) :
    (Discipline.bindsInitializers (eventsWith H fuel session source)).ScriptReady
      (eventsWith H fuel session source) fuel (session.script source).statements
      (session.bound source) :=
  ⟨fun _ _ => trivial, h.mono .inl, fun hundertakes => .inr ⟨hstatic, hfaultless, hundertakes⟩⟩

theorem HoldsBound.run (h : HoldsBound session H) (fuel : Nat) (source : List UInt8) :
    HoldsBound (session.run fuel source).2 (eventsWith H fuel session source) := by
  unfold HoldsBound
  rcases machine_run fuel session source with ⟨hops, hmachine⟩ | ⟨hstatic, hfaultless, hmachine⟩
  · rw [hmachine]
    exact h.mono .inl
  · have hready := h.scriptReady fuel hstatic hfaultless
    rw [hmachine, left_interpret_store]
    exact (Discipline.evolves_executeScript (Discipline.bindsInitializers_lawful _) hready).granted
      hready.granted

theorem Chronicle.holdsBound (h : Chronicle session H) : HoldsBound session H := by
  induction h with
  | start sink clock => exact Machine.granted_start _ sink clock
  | ledger ledger _ ih => exact ih
  | parse source _ ih => exact ih
  | run fuel source _ ih => exact ih.run fuel source

/-- Whatever is begun while a unit runs is allowed: an initializer that is called is bound to an
instance. -/
theorem Chronicle.bound (h : Chronicle session H)
    (hundertaken : session.Undertaken fuel source rest task m) :
    (Discipline.bindsInitializers (eventsWith H fuel session source)).Allows m.frame task := by
  obtain ⟨hstatic, hfaultless, hundertakes⟩ := hundertaken
  exact (Discipline.script_between (Discipline.bindsInitializers_lawful _)
    (h.holdsBound.scriptReady fuel hstatic hfaultless) hundertakes).ready.allowed

theorem Undertaken.trans {last : Nat} {task' : Task}
    (h : session.Undertaken fuel source rest task m)
    (hmore : Undertakes rest task m last task' m') :
    session.Undertaken fuel source last task' m' :=
  ⟨h.1, h.2.1, h.2.2.trans hmore⟩

/-! ## 3. Calls -/

section Calls

variable {e : Expr} {closure : Closure} {arguments : List Value} {m₁ : Machine} {keyword : Token}
variable {value result : Value}

/-- A class that is entered gives the instance to which its initializer is bound. -/
theorem Chronicle.constructs {callee : Store.Callee} {paren : Token} (h : Chronicle session H)
    (hentered : session.Undertaken fuel source (rest + 1) (.enter callee paren arguments) m)
    (hconstructs : Constructs callee m closure result) :
    closure.isInitializer = true ∧ ∃ object,
      ActsFor (eventsWith H fuel session source) 0 closure.frame object closure.routine ∧
        result = .object object := by
  have hallowed := h.bound hentered
  cases hconstructs with
  | @initializer classId info m method hmethod =>
    have hacts := ActsFor.bound (H := eventsWith H fuel session source) (.inr hentered)
      (.constructed hmethod)
    exact ⟨hallowed _ _ hmethod, _, hacts, rfl⟩

/-- An initializer that comes to a `return` leaves the instance it is bound to where it was. -/
theorem Chronicle.resultOn (h : Chronicle session H)
    (hinvoked : session.Undertaken fuel source (rest + 1) (.invoke closure arguments) m)
    {id : Nat} (hid : m.store.functions[id]? = some closure) (hinit : closure.isInitializer = true)
    (hcompletes : closure.Completes rest arguments m keyword value m') :
    ∃ object, ActsFor (eventsWith H fuel session source) 0 closure.frame object closure.routine ∧
      closure.resultOn value m' = .object object := by
  have hsettled := h.reachable.settled
  obtain ⟨object, hacts⟩ := h.bound hinvoked hinit
  have hinvoke := invoke_of_completes hcompletes
  have hgrows := grows_task (rest + 1) (.invoke closure arguments) m
  have hafter := (h.served.between hsettled hinvoked).after
  rw [Task.run, Exec.left_of_ok hinvoke] at hgrows hafter
  have hrooted := (hsettled.shaped_undertaken hinvoked).2.1.function hid
  -- the frame around the body holds the object in the last store, so it does when the call ends
  have hremembers := h.served.remembers_run hsettled fuel hinvoked.1 hinvoked.2.1
  obtain ⟨home, hhome, hholds⟩ := hremembers.home hacts
  cases hhome
  have hvalue := hholds.value
  rw [hafter.self not_name_forInstances (Nat.lt_of_lt_of_le hrooted.lt hgrows.size)] at hvalue
  refine ⟨object, hacts, ?_⟩
  simp [Closure.resultOn, hinit, hvalue]

/-- A call in which a `return` is completed gives its value, or the bound instance. -/
theorem Chronicle.returns (h : Chronicle session H)
    (hundertaken : session.Undertaken fuel source (rest + 4) (.evaluate e) m)
    (hcalls : CallsInto rest e m closure arguments m₁)
    (hcompletes : closure.Completes rest arguments m₁ keyword value m') :
    ∃ result,
      evaluate (rest + 4) e m = .ok result { m' with frame := m.frame, depth := m.depth } ∧
      (closure.isInitializer = false → result = value) ∧
      (closure.isInitializer = true → ∃ object,
        ActsFor (eventsWith H fuel session source) 0 closure.frame object closure.routine ∧
          result = .object object) := by
  obtain ⟨result, hevaluate, ⟨⟨id, hid⟩, hresult⟩ | ⟨callee, paren, m₂, hentered, hconstructs⟩⟩ :=
    hcalls.returns hcompletes
  · refine ⟨result, hevaluate, fun hinit => ?_, fun hinit => ?_⟩
    · rw [hresult, Closure.resultOn, if_neg (by simp [hinit])]
    · rw [hresult]
      exact h.resultOn (hundertaken.trans hcalls.undertakes) hid hinit hcompletes
  · obtain ⟨hinit, hobject⟩ := h.constructs (hundertaken.trans hentered) hconstructs
    refine ⟨result, hevaluate, fun hfalse => ?_, fun _ => hobject⟩
    rw [hinit] at hfalse
    cases hfalse

end Calls

/-- A `return` unwinds exactly one call. No statement at the top level of a script without static
faults ends with one. Watching a body changes nothing and misses nothing that is done in its
activation, and there a `return` that is completed is the last moment, however it is nested: no
statement begins and no condition is tested after it, and the body ends with its value. A statement
ends with a `return` only if one is completed in its own activation, not in a call it makes. And a
call expression of a session, in whose activation a `return` is completed, gives the value, or for
an initializer the instance to which it is bound. It does so on the machine on which the `return`
was completed, with the frame and the number of calls in progress as they were before the call. The
chronicle, which every session has (`Reachable.chronicle`), tells to which instance an initializer
is bound. -/
theorem return_unwinds_one_call (h : Chronicle session H) (fuel : Nat) (source : List UInt8) :
    (∀ statements hops, (Binding.resolve statements hops).2 = [] → ∀ s ∈ statements, ∀ rest m,
      (∃ m', execute rest s m = .ok .normal m') ∨ ∃ halt m', execute rest s m = .error halt m') ∧
    (∀ rest body m, (watchAll rest body).run m = executeAll rest body m ∧ RecordsAll rest body m ∧
      ∀ before keyword value m' after,
        (watchAll rest body).moments m = before ++ .returned keyword value m' :: after →
          after = [] ∧ executeAll rest body m = .ok (.returned value) { m' with frame := m.frame }) ∧
    (∀ rest s m, (watch rest s).run m = execute rest s m ∧
      ∀ value m', execute rest s m = .ok (.returned value) m' →
        ∃ keyword m₁, .returned keyword value m₁ ∈ (watch rest s).moments m) ∧
    ∀ rest e m closure arguments m₁ keyword value m',
      session.Undertaken fuel source (rest + 4) (.evaluate e) m →
      CallsInto rest e m closure arguments m₁ →
      closure.Completes rest arguments m₁ keyword value m' →
      ∃ result,
        evaluate (rest + 4) e m = .ok result { m' with frame := m.frame, depth := m.depth } ∧
        (closure.isInitializer = false → result = value) ∧
        (closure.isInitializer = true → ∃ object,
          ActsFor (eventsWith H fuel session source) 0 closure.frame object closure.routine ∧
            result = .object object) := by
  refine ⟨?_, ?_, ?_, ?_⟩
  · intro statements hops hclean s hs rest m
    exact execute_topLevel hclean hs rest m
  · intro rest body m
    have hrun := (watches rest).statements body
    have hall := recordsAll rest body m
    refine ⟨congrFun hrun m, hall, fun before keyword value m' after hmoments => ?_⟩
    have hends := (closing rest).statements body m
    rw [hrun, hmoments] at hends
    exact hends.last
  · intro rest s m
    have hrun := (watches rest).statement s
    refine ⟨congrFun hrun m, fun value m' hreturned => ?_⟩
    have hends := (closing rest).statement s m
    rw [hrun, hreturned] at hends
    exact hends.completed
  · intro rest e m closure arguments m₁ keyword value m' hundertaken hcalls hcompletes
    exact h.returns hundertaken hcalls hcompletes

/-- A unit in which an initializer and a function return out of endless loops, and the function
returns what the class gives. -/
def endlessReturns : List UInt8 :=
  spelling "class A\x7binit()\x7bwhile(true)\x7breturn;\x7d\x7d\x7d" ++
    spelling "fun f()\x7bwhile(true)\x7breturn A();\x7d\x7df();"

def returningKeyword : Token := ⟨.returnWord, "return", none, 1⟩

def returningInit : Token := ⟨.identifier, "init", none, 1⟩

def returningClass : Token := ⟨.identifier, "A", none, 1⟩

def returningFunction : Token := ⟨.identifier, "f", none, 1⟩

def returningParen : Token := ⟨.rightParen, ")", none, 1⟩

/-- A loop that returns in its first round. -/
def returningLoop (id : Nat) (value : Option Expr) : Stmt :=
  .loop (.literal id (.bool true)) (.block [.ret returningKeyword value])

/-- The expressions `A()` and `f()`. -/
def returningInstance : Expr := .call 3 (.read 2 returningClass) returningParen []

def returningCall : Expr := .call 5 (.read 4 returningFunction) returningParen []

def returningStatements : List Stmt :=
  [.classDecl returningClass [⟨returningInit, [], [returningLoop 0 none]⟩],
    .function ⟨returningFunction, [], [returningLoop 1 (some returningInstance)]⟩,
    .expression returningCall]

theorem script_endlessReturns : (Session.start .unbounded (steadyClock 0)).script endlessReturns =
    ⟨returningStatements, [], 6⟩ := by
  decide +kernel

/-- A body that is the loop comes to its `return`, in the frame of the block around it. -/
theorem inside_returningLoop (fuel : Nat) {id : Nat} {body : List Stmt} {value : Option Expr}
    (hbody : body = [returningLoop id value]) (m : Machine) :
    Inside (fuel + 6) (.executeAll body) m (fuel + 1) (.execute (.ret returningKeyword value))
      (m.inNewFrame m.frame) := by
  subst hbody
  exact .step .first trivial (.step .loop trivial (.step (.round rfl rfl) trivial
    (.step .block trivial (.step .first trivial .here))))

/-- The function is called, and in its activation the class. -/
theorem returningStatements_calls : ∃ m function m₁ method m₂,
    ScriptUndertakes 30 returningStatements (startWith .empty) 29 (.evaluate returningCall) m ∧
      (CallsInto 25 returningCall m function [] m₁ ∧ function.isInitializer = false ∧
        function.routine.body = [returningLoop 1 (some returningInstance)]) ∧
      CallsInto 14 returningInstance
        ((m₁.forBody function []).inNewFrame (m₁.forBody function []).frame) method [] m₂ ∧
        method.isInitializer = true ∧ method.routine.body = [returningLoop 0 none] :=
  ⟨_, _, _, _, _, .later rfl (.later rfl (.now (.step .expression .here))),
    ⟨.intro (.call rfl rfl) (.enter rfl rfl (by decide)) .function, rfl, rfl⟩,
    .intro (.call rfl rfl) (.enter rfl rfl (by decide)) (.classInitializer rfl rfl rfl), rfl, rfl⟩

/-- The initializer and the function return out of their loops. The one gives the instance to the
function, and the other gives it to the statement that called the function. -/
theorem return_unwinds_one_call_endlessReturns :
    let session := Session.start .unbounded (steadyClock 0)
    Chronicle session (fun _ _ _ => False) ∧ session.Faultless endlessReturns ∧
    (∀ s ∈ returningStatements, ∀ rest m,
      (∃ m', execute rest s m = .ok .normal m') ∨ ∃ halt m', execute rest s m = .error halt m') ∧
    ∃ m function m₁ object m₂,
      session.Undertaken 30 endlessReturns 29 (.evaluate returningCall) m ∧
      CallsInto 25 returningCall m function [] m₁ ∧
      function.Completes 25 [] m₁ returningKeyword (.object object) m₂ ∧
      evaluate 29 returningCall m =
        .ok (.object object) { m₂ with frame := m.frame, depth := m.depth } ∧
      execute 30 (.expression returningCall) m =
        .ok .normal { m₂ with frame := m.frame, depth := m.depth } := by
  intro session
  have hchronicle : Chronicle session fun _ _ _ => False := .start .unbounded (steadyClock 0)
  have hfaultless : session.Faultless endlessReturns :=
    ⟨by decide +kernel, by decide +kernel, by decide +kernel⟩
  obtain ⟨htop, -, -, hcall⟩ := return_unwinds_one_call hchronicle 30 endlessReturns
  obtain ⟨m, function, m₁, method, m₂, hbegun, ⟨hcalls, hplain, hbody⟩, hmakes, hinit, hmethod⟩ :=
    returningStatements_calls
  have hundertaken : session.Undertaken 30 endlessReturns 29 (.evaluate returningCall) m :=
    .of_script rfl hfaultless script_endlessReturns (by decide +kernel) hbegun
  -- the function comes to its `return`, which calls the class, and the initializer to its own
  have hinside := inside_returningLoop 19 hbody (m₁.forBody function [])
  have hnested : session.Undertaken 30 endlessReturns 18 (.evaluate returningInstance) _ :=
    hundertaken.trans (hcalls.undertakes.trans (.step .body (hinside.undertakes.trans
      (.step .ret (.step .present .here)))))
  have hreturns : method.Completes 14 [] m₂ returningKeyword .nil _ :=
    .intro (inside_returningLoop 8 hmethod (m₂.forBody method [])) rfl
  obtain ⟨result, hmade, -, hobject⟩ := hcall 14 _ _ _ _ _ _ _ _ hnested hmakes hreturns
  obtain ⟨object, -, rfl⟩ := hobject hinit
  have hgives : function.Completes 25 [] m₁ returningKeyword (.object object) _ :=
    .intro hinside hmade
  obtain ⟨result, hworth, hvalue, -⟩ := hcall 25 _ _ _ _ _ _ _ _ hundertaken hcalls hgives
  obtain rfl := hvalue hplain
  refine ⟨hchronicle, hfaultless, fun s hs => ?_, m, function, m₁, object, _, hundertaken, hcalls,
    hgives, hworth, ?_⟩
  · have hclean : (Binding.resolve returningStatements session.machine.hops).2 = [] := by
      decide +kernel
    exact htop returningStatements _ hclean s hs
  · rw [execute, Exec.bind_of_ok hworth]
    rfl

end Session

end ScriptLang
