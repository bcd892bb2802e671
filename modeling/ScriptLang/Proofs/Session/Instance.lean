/-
ScriptLang.Proofs.Session.Instance — `this` and initializers in sessions.

A session is told together with everything that was begun in it (`Chronicle`),
so that one can speak of the access or the call by which a method was bound,
however long ago that was. Every session that can be reached can be told in
this way (`Reachable.chronicle`), so nothing is assumed about the session by
what is said of chronicles. Whatever units are run, the code in the store stays
served: it will be run in frames that act for the instance that it calls
`this`, and the store remembers the events (`Served`).

It follows what `this` is and what initializers give (`instance_sound`).
-/
import ScriptLang.Proofs.Machine.Instance
import ScriptLang.Proofs.Session.HeapShape

namespace ScriptLang

open Binding (PlacedAll Written)
open Reference (Begins Extended)
open Store (Evolves Granted)

/-- A sound mention has the hop count on the machine that it was given. -/
theorem Reference.Begins.hop {hops : HopTable} {bound : Nat} {e : Expr} {mention : Mention}
    {m : ScriptLang.Machine} (h : Begins (Binding.Addressed hops bound) (.evaluate e) m)
    (hmention : e.mention? = some mention) : m.hops.get? mention.id = hops.get? mention.id := by
  obtain ⟨slots, r, hagrees, S, locals, -, hP⟩ := h
  have haddressed := hP mention (mem_mentions_of_mention? hmention)
  exact (hagrees.addressed S mention haddressed).trans haddressed.hop.symm

namespace Session

variable {session : Session} {source : List UInt8} {H : Events} {fuel rest : Nat} {task : Task}
variable {m : Machine}

/-! ## 1. What was begun in a session -/

/-- What was begun before, and what is begun while a unit runs. -/
def eventsWith (H : Events) (fuel : Nat) (session : Session) (source : List UInt8) : Events :=
  fun rest task m => H rest task m ∨ session.Undertaken fuel source rest task m

/-- A session, and what was begun in it. The rules are those of `Reachable`, and every reachable
session has a chronicle (`Reachable.chronicle`). -/
inductive Chronicle : Session → Events → Prop where
  | start (sink : Sink) (clock : Nat → Float) : Chronicle (.start sink clock) fun _ _ _ => False
  | ledger {session : Session} {H : Events} (ledger : Ledger) : Chronicle session H →
      Chronicle { session with ledger := ledger } H
  | parse {session : Session} {H : Events} (source : List UInt8) : Chronicle session H →
      Chronicle (session.parse source).2 H
  | run {session : Session} {H : Events} (fuel : Nat) (source : List UInt8) : Chronicle session H →
      Chronicle (session.run fuel source).2 (eventsWith H fuel session source)

theorem Chronicle.reachable (h : Chronicle session H) : Reachable session := by
  induction h with
  | start sink clock => exact .start sink clock
  | ledger ledger _ ih => exact ih.ledger ledger
  | parse source _ ih => exact ih.parse source
  | run fuel source _ ih => exact ih.run fuel source

/-- Every session has a chronicle. So what holds along a chronicle holds of every session. -/
theorem Reachable.chronicle (h : Reachable session) : ∃ H, Chronicle session H := by
  induction h with
  | start sink clock => exact ⟨_, .start sink clock⟩
  | ledger ledger _ ih => exact ih.imp fun _ h => h.ledger ledger
  | parse source _ ih => exact ih.imp fun _ h => h.parse source
  | run fuel source _ ih => exact ih.elim fun _ h => ⟨_, h.run fuel source⟩

/-- Nothing is begun if a unit is not run. -/
theorem eventsWith_of_faulty
    (h : ¬ (session.ledger.hadStatic = false ∧ session.Faultless source)) :
    eventsWith H fuel session source = H := by
  funext rest task m
  refine propext ⟨fun hevent => ?_, .inl⟩
  rcases hevent with hold | ⟨hstatic, hfaultless, -⟩
  · exact hold
  · exact absurd ⟨hstatic, hfaultless⟩ h

/-! ## 2. Served sessions -/

/-- A name that a script may declare. -/
abbrev Nameable : Token → Prop := Grammar.Phrase.GoodName Spelled

theorem Nameable.lexeme_ne {t : Token} (h : Nameable t) : t.lexeme ≠ selfName := h.1.name h.2

/-- The code in the store will be run in frames that act for the instance it calls `this`, and the
store remembers what was begun. -/
structure Served (session : Session) (H : Events) : Prop where
  granted : Granted (Discipline.forInstances Nameable H session.machine.hops
    session.nextId).toLicence session.machine.store
  remembers : session.machine.store.Remembers H

/-- New hop counts for new identities change nothing. -/
theorem Served.extend (h : Served session H) {nextId : Nat} {hops : HopTable}
    (hextended : Extended session.nextId session.machine.hops nextId hops) (ledger : Ledger) :
    Served ⟨{ session.machine with hops := hops }, ledger, nextId⟩ H :=
  ⟨Discipline.granted_forInstances_mono h.granted id hextended.le hextended.old, h.remembers⟩

/-- The mentions of a unit without faults are written as they should be. -/
theorem Settled.written (h : Settled session) (hfaultless : session.Faultless source) :
    PlacedAll (Written (session.binding source).1 (session.script source).nextId) []
      (session.script source).statements := by
  obtain ⟨hnumbered, htidy⟩ := built_script hfaultless.grammar
  have hinside := (h.placed hfaultless).inside (fun _ => Nameable.lexeme_ne) htidy .top (by simp
    [Binding.Context.Fits, Binding.Context.top]) hfaultless.binding
  refine hinside.mono ?_
  rintro S m hm ⟨haddressed, hself⟩
  obtain ⟨hword, hkind⟩ := hnumbered.words m hm
  refine ⟨haddressed.toRecorded, ⟨fun hlexeme => ?_, haddressed.spelled⟩, hself⟩
  by_cases hrole : m.role = .self
  · exact hrole
  · rw [if_neg hrole] at hkind
    exact absurd hlexeme (hword.name hkind)

/-- The discipline under which a unit is run. -/
abbrev disciplineOf (H : Events) (fuel : Nat) (session : Session) (source : List UInt8) :
    Discipline :=
  .forInstances Nameable (eventsWith H fuel session source) (session.binding source).1
    (session.script source).nextId

theorem disciplineOf_lawful (H : Events) (fuel : Nat) (session : Session) (source : List UInt8) :
    (disciplineOf H fuel session source).Lawful (eventsWith H fuel session source) :=
  Discipline.forInstances_lawful (fun _ => Nameable.lexeme_ne) _ _ _

section Units

variable (hsettled : Settled session) (hserved : Served session H)
variable (hstatic : session.ledger.hadStatic = false) (hfaultless : session.Faultless source)
include hsettled hserved hstatic hfaultless

/-- A unit without faults is ready to be run. -/
theorem Served.scriptReady :
    (disciplineOf H fuel session source).ScriptReady (eventsWith H fuel session source) fuel
      (session.script source).statements (session.bound source) := by
  have hextended := Reference.extended_of_parse hfaultless.grammar hsettled.unused
  refine ⟨fun s hmem => ?_, ?_, fun hundertakes => .inr ⟨hstatic, hfaultless, hundertakes⟩⟩
  · obtain ⟨S, hplaced, htidy, hdepth⟩ := (hsettled.written hfaultless).mem
      (fun _ => Nameable.lexeme_ne) (built_script hfaultless.grammar).2 hmem
    -- at the top level no scope holds an instance
    refine ⟨S, hplaced, htidy, fun k hk => ?_⟩
    rw [hdepth] at hk
    cases hk
  · exact Discipline.granted_forInstances_mono hserved.granted .inl hextended.le hextended.old

/-- What a unit does to the store. -/
theorem Served.evolves (fuel : Nat) :
    Evolves (disciplineOf H fuel session source).toLicence session.machine.store
      (session.run fuel source).2.machine.store := by
  rw [machine_of_faultless fuel hstatic hfaultless, left_interpret_store]
  exact Discipline.evolves_executeScript (disciplineOf_lawful H fuel session source)
    (hserved.scriptReady hsettled hstatic hfaultless)

end Units

/-- What is begun while a unit runs is allowed, on a store between the first one and the last. -/
theorem Served.between (hserved : Served session H) (hsettled : Settled session)
    (h : session.Undertaken fuel source rest task m) :
    (disciplineOf H fuel session source).Between (eventsWith H fuel session source) rest
      session.machine.store task m (session.run fuel source).2.machine.store := by
  obtain ⟨hstatic, hfaultless, hundertakes⟩ := h
  rw [machine_of_faultless fuel hstatic hfaultless, left_interpret_store]
  exact Discipline.script_between (disciplineOf_lawful H fuel session source)
    (hserved.scriptReady hsettled hstatic hfaultless) hundertakes

/-- After a unit, the store remembers what was begun before it and during it. -/
theorem Served.remembers_run (hserved : Served session H) (hsettled : Settled session)
    (fuel : Nat) (hstatic : session.ledger.hadStatic = false)
    (hfaultless : session.Faultless source) :
    (session.run fuel source).2.machine.store.Remembers (eventsWith H fuel session source) := by
  have hlaw := disciplineOf_lawful H fuel session source
  have hevolves := hserved.evolves hsettled hstatic hfaultless fuel
  refine ⟨fun hevent hbinds => ?_, fun hevent hopens => ?_, fun hevent haccesses => ?_⟩
  · rcases hevent with hold | hnew
    · exact ((hserved.remembers.bound hold hbinds).mono .inl).evolves not_name_forInstances hevolves
    · have hbetween := hserved.between hsettled hnew
      exact (hbinds.holds hlaw hbetween.ready).evolves not_name_forInstances hbetween.after
  · rcases hevent with hold | hnew
    · exact (hserved.remembers.opened hold hopens).evolves not_name_forInstances hevolves
    · have hbetween := hserved.between hsettled hnew
      exact (hopens.nested hlaw hbetween.ready).evolves not_name_forInstances hbetween.after
  · rcases hevent with hold | hnew
    · exact (hserved.remembers.function hold haccesses).grows hevolves.grows
    · have hbetween := hserved.between hsettled hnew
      exact (haccesses.keeps hlaw hbetween.ready).grows hbetween.after.grows

theorem Served.run (hserved : Served session H) (hsettled : Settled session) (fuel : Nat)
    (source : List UInt8) :
    Served (session.run fuel source).2 (eventsWith H fuel session source) := by
  by_cases hruns : session.ledger.hadStatic = false ∧ session.Faultless source
  · obtain ⟨hstatic, hfaultless⟩ := hruns
    obtain ⟨slots, r, hagrees⟩ := hsettled.agrees
    have hrun := hsettled.runsAs hstatic hfaultless fuel hagrees
    refine ⟨?_, hserved.remembers_run hsettled fuel hstatic hfaultless⟩
    rw [hrun.hops, hrun.nextId]
    exact (hserved.evolves hsettled hstatic hfaultless fuel).granted
      (hserved.scriptReady hsettled hstatic hfaultless).granted
  · rw [eventsWith_of_faulty hruns]
    obtain ⟨-, hnextId, hmachine⟩ := run_of_faulty fuel hruns
    rcases hafter : session.run fuel source with ⟨status, machine, ledger, nextId⟩
    rw [hafter] at hnextId hmachine
    obtain rfl : nextId = _ := hnextId
    rcases hmachine with hmachine | ⟨hgrammar, hmachine⟩
    · obtain rfl : machine = _ := hmachine
      exact hserved.extend (hsettled.extended (Grammar.parse_grown _ _).1) ledger
    · obtain rfl : machine = _ := hmachine
      exact hserved.extend (Reference.extended_of_parse hgrammar hsettled.unused) ledger

theorem Chronicle.served (h : Chronicle session H) : Served session H := by
  induction h with
  | start sink clock =>
    exact ⟨Machine.granted_start _ sink clock, fun h => h.elim, fun h => h.elim, fun h => h.elim⟩
  | ledger ledger _ ih => exact ⟨ih.granted, ih.remembers⟩
  | parse source h ih =>
    exact ih.extend (h.reachable.settled.extended (Grammar.parse_grown _ _).1) _
  | run fuel source h ih => exact ih.run h.reachable.settled fuel source

/-! ## 3. The instance -/

section Instance

variable (hserved : Served session H) (hsettled : Settled session)
include hserved hsettled

/-- From what is begun, the store evolves to the one that the unit leaves. -/
theorem Served.evolves_from (h : session.Undertaken fuel source rest task m) :
    Evolves (disciplineOf H fuel session source).toLicence m.store
      (session.run fuel source).2.machine.store := by
  have hbetween := hserved.between hsettled h
  have hinside := Discipline.kept (disciplineOf_lawful H fuel session source) _ hbetween.ready
  exact hinside.trans hbetween.after

/-- The keyword `this` stands for the object for which the current frame acts, and belongs to the
method that is bound to it. -/
theorem Served.self {id : Nat} {keyword : Token}
    (h : session.Undertaken fuel source (rest + 1) (.evaluate (.self id keyword)) m) :
    ∃ k object method, ActsFor (eventsWith H fuel session source) k m.frame object method ∧
      id ∈ method.selves ∧
      evaluate (rest + 1) (.self id keyword) m = .ok (.object object) m := by
  have hremembers := hserved.remembers_run hsettled fuel h.1 h.2.1
  have hevolves := hserved.evolves_from hsettled h
  have hbegins := hsettled.begins h.2.1 h.2.2.visits
  obtain ⟨S, hwritten, hserves⟩ := (hserved.between hsettled h).ready.allowed
  have hself := hwritten ⟨.self, id, keyword⟩ List.mem_cons_self
  obtain ⟨k, hk, hhop⟩ := hself.hop_self rfl
  obtain ⟨object, method, hacts, hselves⟩ := hserves k hk
  refine ⟨k, object, method, hacts, hselves id List.mem_cons_self, ?_⟩
  -- the frame that the hop count leads to now is the home of the object in the last store
  have hlexeme : keyword.lexeme = selfName := hself.spelled.mpr rfl
  have hcount : m.hops.get? id = some k := (hbegins.hop rfl).trans hhop
  obtain ⟨frame, hframe, hbound⟩ := hbegins.reached rfl hcount
  replace hbound := hbound (by simp)
  obtain ⟨home, hhome, hholds⟩ := hremembers.home hacts
  rw [hevolves.grows.ancestor hframe] at hhome
  cases hhome
  have hvalue := hholds.value
  rw [hevolves.self not_name_forInstances (m.store.lt_of_getHere? hbound)] at hvalue
  rw [evaluate, Exec.readVariable_eq, hcount, Option.elim_some]
  refine Exec.readBy_of_some ?_
  rw [Store.getAt?, hframe, Option.bind_some, hlexeme, hvalue]

/-- Calling a bound initializer gives the object it is bound to. -/
theorem Served.initializer {id rest' object : Nat} {e : Expr} {name paren : Token} {m₁ m₂ m₃ : Machine}
    {method : Closure} {arguments : List Value} {value : Value}
    (hevent : eventsWith H fuel session source (rest + 1) (.evaluate (.property id e name)) m)
    (haccesses : Accesses rest m e name object method m₁) (hname : name.lexeme = initializerName)
    (h : session.Undertaken fuel source rest'
      (.call (.function m₁.store.functions.size) paren arguments) m₂)
    (hcall : call rest' (.function m₁.store.functions.size) paren arguments m₂ = .ok value m₃) :
    value = .object object := by
  have hremembers := hserved.remembers_run hsettled fuel h.1 h.2.1
  have hkeeps := hremembers.function hevent haccesses
  have hbetween := hserved.between hsettled h
  obtain ⟨closure, hclosure, hgives⟩ := call_initializer hcall
  have hrooted := (hsettled.shaped_undertaken h).2.1.function hclosure
  have hlast := (hserved.evolves_from hsettled h).grows.function hclosure
  rw [hkeeps.entry] at hlast
  cases hlast
  have hinit : method.isInitializer = true := by
    rw [hkeeps.initializer, hname]
    rfl
  rw [hgives hinit]
  have hgrows := grows_task rest' (.call (.function m₁.store.functions.size) paren arguments) m₂
  have hafter := hbetween.after
  rw [Task.run, Exec.left_of_ok hcall] at hgrows hafter
  have hvalue := (hremembers.bound hevent (.accessed haccesses)).value
  rw [hafter.self not_name_forInstances (Nat.lt_of_lt_of_le hrooted.lt hgrows.size)] at hvalue
  rw [hvalue]
  rfl

end Instance

/-- In every session, `this` and initializers are sound; a session has a chronicle exactly if it can be
reached (`Reachable.chronicle`, `Chronicle.reachable`). Wherever the keyword `this` is evaluated
while a unit runs, it is worth the object for which the current frame acts, the only one, and the
keyword belongs to the method through which the frame acts for it. The object is of a class that was
made by a declaration that this method is written in. Calling a class, on whatever machine, gives
the instance that is made for the call, if it gives anything. And a property that is the method
`init` of an object is worth a function that gives this object, if it gives anything, whenever it is
called. -/
theorem instance_sound (h : Chronicle session H) (fuel : Nat) (source : List UInt8) :
    let events := eventsWith H fuel session source
    let last := (session.run fuel source).2.machine.store
    (∀ rest id keyword m,
      session.Undertaken fuel source (rest + 1) (.evaluate (.self id keyword)) m →
      ∃ k object method, evaluate (rest + 1) (.self id keyword) m = .ok (.object object) m ∧
        ActsFor events k m.frame object method ∧ id ∈ method.selves ∧
        (∀ k' object' method', ActsFor events k' m.frame object' method' →
          k' = k ∧ object' = object) ∧
        ∃ entry, last.objects[object]? = some entry ∧ Declares events entry.classId method) ∧
    (∀ fuel classId paren arguments m value m',
      call fuel (.classRef classId) paren arguments m = .ok value m' →
      value = .object m.store.objects.size ∧
        ∃ fields, m'.store.objects[m.store.objects.size]? = some ⟨classId, fields⟩) ∧
    (∀ rest id e name m object method m₁,
      events (rest + 1) (.evaluate (.property id e name)) m →
      Accesses rest m e name object method m₁ → name.lexeme = initializerName →
      ∃ function m₁', evaluate (rest + 1) (.property id e name) m = .ok function m₁' ∧
        ∀ rest' paren arguments m₂ value m₃,
          session.Undertaken fuel source rest' (.call function paren arguments) m₂ →
          call rest' function paren arguments m₂ = .ok value m₃ → value = .object object) := by
  intro events last
  have hserved := h.served
  have hsettled := h.reachable.settled
  refine ⟨?_, ?_, ?_⟩
  · intro rest id keyword m hundertaken
    have hremembers := hserved.remembers_run hsettled fuel hundertaken.1 hundertaken.2.1
    obtain ⟨k, object, method, hacts, hselves, hvalue⟩ := hserved.self hsettled hundertaken
    obtain ⟨home, -, hholds⟩ := hremembers.home hacts
    exact ⟨k, object, method, hvalue, hacts, hselves,
      fun k' object' method' hacts' => hremembers.unique hacts hacts', hholds.owner⟩
  · exact fun fuel classId paren arguments m value m' hcall => call_class hcall
  · intro rest id e name m object method m₁ hevent haccesses hname
    refine ⟨_, _, haccesses.run id, fun rest' paren arguments m₂ value m₃ hundertaken hcall => ?_⟩
    exact hserved.initializer hsettled hevent haccesses hname hundertaken hcall

/-- A unit in which an initializer has the keyword, a class is called, and the initializer of the
instance is called again. -/
def selfGiving : List UInt8 := spelling "class A\x7binit()\x7bthis;\x7d\x7dA().init();"

def givingThis : Token := ⟨.thisWord, "this", none, 1⟩

def givingInit : Token := ⟨.identifier, "init", none, 1⟩

def givingName : Token := ⟨.identifier, "A", none, 1⟩

def givingParen : Token := ⟨.rightParen, ")", none, 1⟩

/-- The expression `A()`. -/
def givingInstance : Expr := .call 2 (.read 1 givingName) givingParen []

def givingClass : Stmt :=
  .classDecl givingName [⟨givingInit, [], [.expression (.self 0 givingThis)]⟩]

def givingStatements : List Stmt :=
  [givingClass, .expression (.call 4 (.property 3 givingInstance givingInit) givingParen [])]

/-- The machine on which the unit is run: the keyword is one scope away from its instance. -/
def givingMachine : Machine := startWith ⟨#[some 1]⟩

theorem script_selfGiving : (Session.start .unbounded (steadyClock 0)).script selfGiving =
    ⟨givingStatements, [], 5⟩ := by
  decide +kernel

/-- The keyword is evaluated when the class is called. -/
theorem givingStatements_self : ∃ rest m,
    ScriptUndertakes 13 givingStatements givingMachine (rest + 1) (.evaluate (.self 0 givingThis)) m :=
  ⟨_, _, .later rfl (.now (.step .expression (.step .callee (.step .propertyObject
    (.step (.call rfl rfl) (.step (.enter rfl rfl (by decide)) (.step (.classInitializer rfl rfl rfl)
      (.step .body (.step .first (.step .expression .here))))))))))⟩

/-- The initializer of the new instance is accessed, and what it is worth is called. -/
theorem givingStatements_call : ∃ m m₁ m₂ method,
    (ScriptUndertakes 13 givingStatements givingMachine 11
        (.evaluate (.property 3 givingInstance givingInit)) m ∧
      Accesses 10 m givingInstance givingInit 0 method m₁ ∧
      evaluate 11 (.property 3 givingInstance givingInit) m = .ok (.function 0) m₂) ∧
    ScriptUndertakes 13 givingStatements givingMachine 11 (.call (.function 0) givingParen []) m₂ ∧
    ∃ value m₃, call 11 (.function 0) givingParen [] m₂ = .ok value m₃ := by
  have hdeclared : execute 13 givingClass givingMachine = .ok .normal _ :=
    Exec.ok_of_gives? (by decide +kernel)
  have hmade : evaluate 10 givingInstance ((execute 13 givingClass).left givingMachine) =
      .ok (.object 0) _ := Exec.ok_of_gives? (by decide +kernel)
  have hworth : evaluate 11 (.property 3 givingInstance givingInit)
      ((execute 13 givingClass).left givingMachine) = .ok (.function 0) _ :=
    Exec.ok_of_gives? (by decide +kernel)
  obtain ⟨method, hmethod⟩ := Option.isSome_iff_exists.mp (show
    (((evaluate 10 givingInstance).left
      ((execute 13 givingClass).left givingMachine)).store.methodOf? 0 "init").isSome = true by
    decide +kernel)
  exact ⟨_, _, _, method,
    ⟨.later hdeclared (.now (.step .expression (.step .callee .here))),
      ⟨hmade, by decide +kernel, hmethod⟩, hworth⟩,
    .later hdeclared (.now (.step .expression (.step (.call hworth rfl) .here))), .object 0, _,
    Exec.ok_of_gives? (by decide +kernel)⟩

theorem instance_sound_selfGiving :
    let session := Session.start .unbounded (steadyClock 0)
    Chronicle session (fun _ _ _ => False) ∧ session.Faultless selfGiving ∧
    (∃ rest m k object method,
      session.Undertaken 13 selfGiving (rest + 1) (.evaluate (.self 0 givingThis)) m ∧
      evaluate (rest + 1) (.self 0 givingThis) m = .ok (.object object) m ∧
      ActsFor (eventsWith (fun _ _ _ => False) 13 session selfGiving) k m.frame object method) ∧
    ∃ rest m value m', session.Undertaken 13 selfGiving rest (.call (.function 0) givingParen []) m ∧
      call rest (.function 0) givingParen [] m = .ok value m' ∧ value = .object 0 := by
  intro session
  have hchronicle : Chronicle session fun _ _ _ => False := .start .unbounded (steadyClock 0)
  have hfaultless : session.Faultless selfGiving :=
    ⟨by decide +kernel, by decide +kernel, by decide +kernel⟩
  have hundertaken : ∀ {rest task m}, ScriptUndertakes 13 givingStatements givingMachine rest task m →
      session.Undertaken 13 selfGiving rest task m :=
    .of_script rfl hfaultless script_selfGiving (by decide +kernel)
  obtain ⟨hself, -, hinitializer⟩ := instance_sound hchronicle 13 selfGiving
  obtain ⟨rest, m, hkeyword⟩ := givingStatements_self
  obtain ⟨k, object, method, hvalue, hacts, -⟩ := hself rest 0 givingThis m (hundertaken hkeyword)
  obtain ⟨m₀, m₁, m₂, method', ⟨haccess, haccesses, hworth⟩, hcalled, value, m₃, hcall⟩ :=
    givingStatements_call
  obtain ⟨function, m₂', hfunction, hgives⟩ := hinitializer 10 3 givingInstance givingInit m₀ 0
    method' m₁ (.inr (hundertaken haccess)) haccesses rfl
  rw [hworth] at hfunction
  cases hfunction
  exact ⟨hchronicle, hfaultless, ⟨rest, m, k, object, method, hundertaken hkeyword, hvalue, hacts⟩,
    11, m₂, value, m₃, hundertaken hcalled, hcall,
    hgives 11 givingParen [] m₂ value m₃ (hundertaken hcalled) hcall⟩

end Session

end ScriptLang
