/-
ScriptLang.Proofs.Reference.Mirroring — frames mirror scopes wherever the
evaluator comes by.

`Task.Sound` says what is known when the evaluator begins a task: for a
statement or an expression, that the current frame mirrors the scopes in which
it is placed; for a call, that what is called has its counterpart. One lemma
shows that what is asked while a sound task is done is sound again, with one
case for each rule of `Asks`; so everything visited in a run is sound.
-/
import ScriptLang.Proofs.Binding.Bound
import ScriptLang.Proofs.Machine.Tracing
import ScriptLang.Proofs.Reference.Simulation

namespace ScriptLang

/-- The mention that an expression is itself, if it is one. -/
def Expr.mention? : Expr → Option Mention
  | .read id name => some ⟨.read, id, name⟩
  | .assign id name _ => some ⟨.assign, id, name⟩
  | .self id keyword => some ⟨.self, id, keyword⟩
  | _ => none

namespace Reference

open Binding (Scope scopesAfter scopesAfter_nil declaredName?)
open Binding (Placed PlacedAll PlacedRoutine PlacedMethods Addressed)

section Mirroring

variable {P : List Scope → Mention → Prop} {fuel : Nat} {task task' : Task} {m m' : ScriptLang.Machine}

/-! ## 1. Sound tasks -/

/-- What is known when a task begins. -/
def Sound (P : List Scope → Mention → Prop) (c : Config) : Task → Prop
  | .execute s => ∃ S env, c.Stands S env ∧ c.Exact S ∧ Placed P S s
  | .executeAll body => ∃ S env, c.Stands S env ∧ c.Exact S ∧ PlacedAll P S body
  | .executeLoop condition body => ∃ S env, c.Stands S env ∧ c.Exact S ∧
      (∀ m ∈ condition.mentions, P S m) ∧ declaredName? body = none ∧ Placed P S body
  | .evaluate e => ∃ S locals, c.Mirrors S locals ∧ ∀ m ∈ e.mentions, P S m
  | .evaluateOption e => ∃ S locals, c.Mirrors S locals ∧ ∀ m ∈ Expr.mentionsOption e, P S m
  | .evaluateAll es => ∃ S locals, c.Mirrors S locals ∧ ∀ m ∈ Expr.mentionsAll es, P S m
  | .call _ _ _ => True
  | .enter callee _ arguments =>
    ∃ callee', CalleeAgrees P c.machine.globals c.slots c.machine.store callee callee' ∧
      arguments.length = callee.arity
  | .invoke closure arguments =>
    ∃ closure', ClosureAgrees P c.machine.globals c.slots c.machine.store [] closure closure' ∧
      arguments.length = closure.routine.parameters.length

/-- A machine on which a task begins, with a corresponding machine of the reference evaluator. -/
def Begins (P : List Scope → Mention → Prop) (task : Task) (m : ScriptLang.Machine) : Prop :=
  ∃ slots r, Agrees P ⟨slots, m, r⟩ ∧ Sound P ⟨slots, m, r⟩ task

/-- What a comparison says when the machine gives a result. -/
theorem Sim.of_ok {α β : Type} {current : Option Nat} {c : Config} {x : ScriptLang.Exec α}
    {y : Exec β} {Q : Config → α → β → Prop} (h : Sim P current c x y Q) {a : α}
    (hx : x c.machine = .ok a m') :
    ∃ slots r b, Agrees P ⟨slots, m', r⟩ ∧ Step current c ⟨slots, m', r⟩ ∧ Q ⟨slots, m', r⟩ a b := by
  unfold Sim at h
  rw [hx] at h
  cases hy : y c.reference with
  | ok b r =>
    rw [hy] at h
    obtain ⟨slots, hrest⟩ := h
    exact ⟨slots, r, b, hrest⟩
  | error halt r => rw [hy] at h; exact h.elim

/-- Something does not fail if its counterpart does not. -/
theorem Sim.not_fails {α β : Type} {current : Option Nat} {c : Config} {x : ScriptLang.Exec α}
    {y : Exec β} {Q : Config → α → β → Prop} (h : Sim P current c x y Q)
    (hy : ∃ b r, y c.reference = .ok b r) {halt : Halt} : ¬ Fails x c.machine halt := by
  rintro ⟨m', hx⟩
  obtain ⟨b, r, hy⟩ := hy
  unfold Sim at h
  rw [hx, hy] at h
  exact h

/-! ## 2. Expressions -/

/-- After an expression of a sound place was evaluated, the place is sound for other expressions. -/
theorem after_expression {slots : Slots} {r : Machine} {S : List Scope} {locals : Locals} {e : Expr}
    {value : Value} (hagrees : Agrees P ⟨slots, m, r⟩)
    (hmirrors : Config.Mirrors ⟨slots, m, r⟩ S locals) (hP : ∀ m ∈ e.mentions, P S m)
    (hvalue : ScriptLang.evaluate fuel e m = .ok value m') :
    ∃ slots' r', Agrees P ⟨slots', m', r'⟩ ∧ Step none ⟨slots, m, r⟩ ⟨slots', m', r'⟩ ∧
      Config.Mirrors ⟨slots', m', r'⟩ S locals := by
  obtain ⟨slots', r', -, hagrees', hstep, -⟩ :=
    ((simulates P fuel).expression hagrees hmirrors hP).of_ok hvalue
  exact ⟨slots', r', hagrees', hstep, hstep.mirrors hmirrors⟩

/-- What is asked while an expression is evaluated is sound. -/
theorem Begins.asks_expression {e : Expr} (h : Begins P (.evaluate e) m)
    (hask : Asks fuel (.evaluate e) m task' m') : Begins P task' m' := by
  obtain ⟨slots, r, hagrees, S, locals, hmirrors, hP⟩ := h
  cases hask with
  | group => exact ⟨slots, r, hagrees, S, locals, hmirrors, hP⟩
  | operand => exact ⟨slots, r, hagrees, S, locals, hmirrors, hP⟩
  | binaryLeft =>
    exact ⟨slots, r, hagrees, S, locals, hmirrors, fun m hm => hP m (List.mem_append_left _ hm)⟩
  | binaryRight hleft =>
    obtain ⟨slots', r', hagrees', -, hmirrors'⟩ :=
      after_expression hagrees hmirrors (fun m hm => hP m (List.mem_append_left _ hm)) hleft
    exact ⟨slots', r', hagrees', S, locals, hmirrors', fun m hm => hP m (List.mem_append_right _ hm)⟩
  | logicalLeft =>
    exact ⟨slots, r, hagrees, S, locals, hmirrors, fun m hm => hP m (List.mem_append_left _ hm)⟩
  | logicalRight hleft _ =>
    obtain ⟨slots', r', hagrees', -, hmirrors'⟩ :=
      after_expression hagrees hmirrors (fun m hm => hP m (List.mem_append_left _ hm)) hleft
    exact ⟨slots', r', hagrees', S, locals, hmirrors', fun m hm => hP m (List.mem_append_right _ hm)⟩
  | assigned =>
    exact ⟨slots, r, hagrees, S, locals, hmirrors, fun m hm => hP m (List.mem_cons_of_mem _ hm)⟩
  | callee =>
    exact ⟨slots, r, hagrees, S, locals, hmirrors, fun m hm => hP m (List.mem_append_left _ hm)⟩
  | arguments hcallee =>
    obtain ⟨slots', r', hagrees', -, hmirrors'⟩ :=
      after_expression hagrees hmirrors (fun m hm => hP m (List.mem_append_left _ hm)) hcallee
    exact ⟨slots', r', hagrees', S, locals, hmirrors', fun m hm => hP m (List.mem_append_right _ hm)⟩
  | call hcallee harguments =>
    obtain ⟨slots', r', hagrees', -, hmirrors'⟩ :=
      after_expression hagrees hmirrors (fun m hm => hP m (List.mem_append_left _ hm)) hcallee
    obtain ⟨slots'', r'', -, hagrees'', -⟩ := ((simulates P fuel).expressions hagrees' hmirrors'
      fun m hm => hP m (List.mem_append_right _ hm)).of_ok harguments
    exact ⟨slots'', r'', hagrees'', trivial⟩
  | propertyObject => exact ⟨slots, r, hagrees, S, locals, hmirrors, hP⟩
  | fieldObject =>
    exact ⟨slots, r, hagrees, S, locals, hmirrors, fun m hm => hP m (List.mem_append_left _ hm)⟩
  | fieldValue hobject =>
    obtain ⟨slots', r', hagrees', -, hmirrors'⟩ :=
      after_expression hagrees hmirrors (fun m hm => hP m (List.mem_append_left _ hm)) hobject
    exact ⟨slots', r', hagrees', S, locals, hmirrors', fun m hm => hP m (List.mem_append_right _ hm)⟩

/-! ## 3. Statements -/

/-- What is asked while a statement is executed is sound. -/
theorem Begins.asks_statement {s : Stmt} (h : Begins P (.execute s) m)
    (hask : Asks fuel (.execute s) m task' m') : Begins P task' m' := by
  obtain ⟨slots, r, hagrees, S, env, hstands, hexact, hplaced⟩ := h
  have hlt := hagrees.frame_lt hstands.1
  cases hask with
  | expression =>
    cases hplaced with
    | expression hP => exact ⟨slots, r, hagrees, S, _, hstands.1, hP⟩
  | print =>
    cases hplaced with
    | print hP => exact ⟨slots, r, hagrees, S, _, hstands.1, hP⟩
  | initializer =>
    cases hplaced with
    | var hfresh hP =>
      -- the initializer is evaluated where the name is declared already
      obtain ⟨slots', r', env', hagrees', -, hstands', -⟩ :=
        (sim_declare hagrees hstands hexact hfresh).of_ok rfl
      exact ⟨slots', r', hagrees', _, _, hstands'.1, hP⟩
  | block =>
    cases hplaced with
    | block hbody =>
      exact ⟨slots, r, hagrees.addFrame (some m.frame) _, _, .inside env.locals,
        ⟨hstands.1.enter, by simp⟩, hagrees.exact_newFrame m.frame S, hbody⟩
  | ifThenCondition =>
    cases hplaced with
    | ifThen hP => exact ⟨slots, r, hagrees, S, _, hstands.1, hP⟩
  | ifThen hcondition _ =>
    cases hplaced with
    | ifThen hP _ hbranch =>
      obtain ⟨slots', r', hagrees', hstep, -⟩ := after_expression hagrees hstands.1 hP hcondition
      exact ⟨slots', r', hagrees', S, env, hstep.stands hstands, hstep.exact hlt hexact, hbranch⟩
  | ifElseCondition =>
    cases hplaced with
    | ifElse hP => exact ⟨slots, r, hagrees, S, _, hstands.1, hP⟩
  | ifElseThen hcondition _ =>
    cases hplaced with
    | ifElse hP _ hbranch =>
      obtain ⟨slots', r', hagrees', hstep, -⟩ := after_expression hagrees hstands.1 hP hcondition
      exact ⟨slots', r', hagrees', S, env, hstep.stands hstands, hstep.exact hlt hexact, hbranch⟩
  | ifElseElse hcondition _ =>
    cases hplaced with
    | ifElse hP _ _ _ hbranch =>
      obtain ⟨slots', r', hagrees', hstep, -⟩ := after_expression hagrees hstands.1 hP hcondition
      exact ⟨slots', r', hagrees', S, env, hstep.stands hstands, hstep.exact hlt hexact, hbranch⟩
  | loop =>
    cases hplaced with
    | loop hP hname hbody => exact ⟨slots, r, hagrees, S, env, hstands, hexact, hP, hname, hbody⟩
  | ret =>
    cases hplaced with
    | ret hP => exact ⟨slots, r, hagrees, S, _, hstands.1, hP⟩

theorem Begins.asks_statements {body : List Stmt} (h : Begins P (.executeAll body) m)
    (hask : Asks fuel (.executeAll body) m task' m') : Begins P task' m' := by
  obtain ⟨slots, r, hagrees, S, env, hstands, hexact, hplaced⟩ := h
  cases hask with
  | first =>
    cases hplaced with
    | cons hfirst _ => exact ⟨slots, r, hagrees, S, env, hstands, hexact, hfirst⟩
  | next hnormal =>
    cases hplaced with
    | cons hfirst hrest =>
      obtain ⟨slots', r', out, hagrees', -, -, hstands', hexact'⟩ :=
        ((simulates P fuel).statement hagrees hstands hexact hfirst).of_ok hnormal
      exact ⟨slots', r', hagrees', _, out.2, hstands', hexact', hrest⟩

theorem Begins.asks_loop {condition : Expr} {body : Stmt}
    (h : Begins P (.executeLoop condition body) m)
    (hask : Asks fuel (.executeLoop condition body) m task' m') : Begins P task' m' := by
  obtain ⟨slots, r, hagrees, S, env, hstands, hexact, hP, hname, hplaced⟩ := h
  have hlt := hagrees.frame_lt hstands.1
  cases hask with
  | loopCondition => exact ⟨slots, r, hagrees, S, _, hstands.1, hP⟩
  | round hcondition _ =>
    obtain ⟨slots', r', hagrees', hstep, -⟩ := after_expression hagrees hstands.1 hP hcondition
    exact ⟨slots', r', hagrees', S, env, hstep.stands hstands, hstep.exact hlt hexact, hplaced⟩
  | again hcondition _ hbody =>
    obtain ⟨slots', r', hagrees', hstep, -⟩ := after_expression hagrees hstands.1 hP hcondition
    obtain ⟨slots'', r'', out, hagrees'', hstep', -, -, hexact'⟩ :=
      ((simulates P fuel).statement hagrees' (hstep.stands hstands) (hstep.exact hlt hexact)
        hplaced).of_ok hbody
    rw [scopesAfter, hname] at hexact'
    exact ⟨slots'', r'', hagrees'', S, env, hstep'.stands (hstep.stands hstands), hexact', hP,
      hname, hplaced⟩

/-! ## 4. Calls -/

theorem Begins.asks_call {value : Value} {paren : Token} {arguments : List Value}
    (h : Begins P (.call value paren arguments) m)
    (hask : Asks fuel (.call value paren arguments) m task' m') : Begins P task' m' := by
  obtain ⟨slots, r, hagrees, -⟩ := h
  cases hask with
  | enter hcallee harity _ =>
    have hrel := hagrees.heap.rel_callee value
    rw [hcallee] at hrel
    generalize r.store.callee? value = callee'? at hrel
    cases hrel with
    | some hboth =>
      refine ⟨slots, { r with depth := r.depth + 1 }, ⟨hagrees.cells, hagrees.heap,
        hagrees.addressed, ?_, hagrees.sink, hagrees.clock, hagrees.readings⟩, _, hboth, harity⟩
      have hdepth : r.depth = m.depth := hagrees.depth
      simp only [hdepth]

theorem Begins.asks_enter {callee : ScriptLang.Store.Callee} {paren : Token}
    {arguments : List Value} (h : Begins P (.enter callee paren arguments) m)
    (hask : Asks fuel (.enter callee paren arguments) m task' m') : Begins P task' m' := by
  obtain ⟨slots, r, hagrees, callee', hcallee, harity⟩ := h
  cases hask with
  | function =>
    cases hcallee with
    | function hclosure => exact ⟨slots, r, hagrees, _, hclosure, harity⟩
  | @classInitializer classId info _ _ _ method object s bound s' hmethod hobject hbound =>
    cases hcallee with
    | classRef _ hclass =>
      have hrel := hclass.2 initializerName
      rw [ScriptLang.Store.Callee.arity, hmethod] at harity
      rw [hmethod] at hrel
      generalize NameMap.get? _ initializerName = method'? at hrel
      cases hrel with
      | some hagreesMethod =>
        cases hobject
        obtain ⟨slots₁, r₁, _, hagrees₁, hstep₁, -⟩ :=
          (sim_addObject hagrees classId).of_ok rfl
        cases hbound
        obtain ⟨slots₂, r₂, bound', hagrees₂, -, hroutine, hclosure⟩ :=
          (sim_bindMethod hagrees₁ (hstep₁.closureAgrees hagreesMethod) _).of_ok rfl
        exact ⟨slots₂, r₂, hagrees₂, bound', hclosure, by rw [hroutine]; exact harity⟩

theorem Begins.asks_invoke {closure : ScriptLang.Closure} {arguments : List Value}
    (h : Begins P (.invoke closure arguments) m)
    (hask : Asks fuel (.invoke closure arguments) m task' m') : Begins P task' m' := by
  obtain ⟨slots, r, hagrees, closure', ⟨-, -, S, hmirrors, hplaced, -⟩, harity⟩ := h
  cases hask with
  | body =>
    have hinside := hagrees.addFrame (some closure.frame) m.store.frames.size
    obtain ⟨slots', r', locals, hagrees', -, hmirrors', hexact'⟩ :=
      (sim_bindParameters closure.routine.parameters arguments .empty closure'.locals hinside
        hmirrors.enter (hagrees.exact_newFrame closure.frame S) hplaced.nodup (fun _ _ => rfl)
        harity).of_ok (defineAllHere_eq _ _)
    exact ⟨slots', r', hagrees', _, .inside locals, ⟨hmirrors', by simp⟩, hexact', hplaced.body⟩

/-! ## 5. Whole runs -/

/-- What is asked while a sound task is done is sound. -/
theorem Begins.asks (h : Begins P task m) (hask : Asks fuel task m task' m') :
    Begins P task' m' := by
  cases task with
  | execute s => exact h.asks_statement hask
  | executeAll body => exact h.asks_statements hask
  | executeLoop condition body => exact h.asks_loop hask
  | evaluate e => exact h.asks_expression hask
  | evaluateOption e =>
    cases hask with
    | present => exact h
  | evaluateAll es =>
    obtain ⟨slots, r, hagrees, S, locals, hmirrors, hP⟩ := h
    cases hask with
    | head =>
      exact ⟨slots, r, hagrees, S, locals, hmirrors, fun m hm => hP m (List.mem_append_left _ hm)⟩
    | tail hfirst =>
      obtain ⟨slots', r', hagrees', -, hmirrors'⟩ :=
        after_expression hagrees hmirrors (fun m hm => hP m (List.mem_append_left _ hm)) hfirst
      exact ⟨slots', r', hagrees', S, locals, hmirrors',
        fun m hm => hP m (List.mem_append_right _ hm)⟩
  | call value paren arguments => exact h.asks_call hask
  | enter callee paren arguments => exact h.asks_enter hask
  | invoke closure arguments => exact h.asks_invoke hask

/-- Whatever is visited while a sound task is done is sound. -/
theorem Begins.visits (h : Begins P task m) (hvisits : Visits fuel task m task' m') :
    Begins P task' m' := by
  induction hvisits with
  | here => exact h
  | step hask _ ih => exact ih (h.asks hask)

/-- Whatever is visited while a script runs is sound. -/
theorem begins_of_script {statements : List Stmt} {slots : Slots} {r : Machine}
    (hagrees : Agrees P ⟨slots, m, r⟩) (htop : m.frame = m.globals)
    (hplaced : PlacedAll P [] statements) (hvisits : ScriptVisits fuel statements m task m') :
    Begins P task m' := by
  induction hvisits generalizing slots r with
  | @now s rest m task m' hvisits =>
    cases hplaced with
    | cons hfirst _ =>
      have hbegins : Begins P (.execute s) m := ⟨slots, r, hagrees, [], .top,
        Config.stands_top htop, fun _ h => absurd h (by simp), hfirst⟩
      exact hbegins.visits hvisits
  | @later s rest m flow m₁ task m' hdone _ ih =>
    cases hplaced with
    | cons hfirst hrest =>
      obtain ⟨slots', r', -, hagrees', hstep, -⟩ :=
        ((simulates P fuel).statement hagrees (Config.stands_top htop)
          (fun _ h => absurd h (by simp)) hfirst).of_ok hdone
      rw [scopesAfter_nil] at hrest
      exact ih hagrees' (hstep.frame.trans (htop.trans hstep.globals.symm)) hrest

end Mirroring

/-! ## 6. Mentions -/

section Mentions

variable {hops : HopTable} {bound : Nat} {m : ScriptLang.Machine}

theorem mem_mentions_of_mention? {e : Expr} {mention : Mention} (h : e.mention? = some mention) :
    mention ∈ e.mentions := by
  cases e with
  | read | assign | self =>
    cases h
    exact List.mem_cons_self
  | literal | group | unary | binary | logical | call | property | setProperty => cases h

/-- The frame of a mirrored scope has the variable that a mention with a hop count means. -/
theorem reached {S : List Scope} {locals : Locals} {c : Config} {mention : Mention} {distance : Nat}
    (hagrees : Agrees (Addressed hops bound) c) (hmirrors : c.Mirrors S locals)
    (haddressed : Addressed hops bound S mention)
    (hdistance : c.machine.hops.get? mention.id = some distance) :
    ∃ frame, c.machine.store.ancestor? distance c.machine.frame = some frame ∧
      (mention.role ≠ .assign →
        (c.machine.store.getHere? frame mention.token.lexeme).isSome = true) := by
  rw [hagrees.addressed S mention haddressed] at hdistance
  obtain ⟨frame, location, scope, hancestor, -, -, hscope, hready⟩ := hmirrors.found hdistance
  exact ⟨frame, hancestor, fun hrole => hready (haddressed.readable hrole hdistance hscope)⟩

/-- Wherever a mention with a hop count is evaluated, so many links lead outward from the current
frame, and a variable that is read is bound there. -/
theorem Begins.reached {e : Expr} {mention : Mention} {distance : Nat}
    (h : Begins (Addressed hops bound) (.evaluate e) m) (hmention : e.mention? = some mention)
    (hdistance : m.hops.get? mention.id = some distance) :
    ∃ frame, m.store.ancestor? distance m.frame = some frame ∧
      (mention.role ≠ .assign → (m.store.getHere? frame mention.token.lexeme).isSome = true) := by
  obtain ⟨slots, r, hagrees, S, locals, hmirrors, hP⟩ := h
  exact Reference.reached hagrees hmirrors (hP mention (mem_mentions_of_mention? hmention)) hdistance

/-- What is read by its address is not undefined. -/
theorem Begins.not_fails_readVariable {e : Expr} {mention : Mention} {halt : Halt}
    (h : Begins (Addressed hops bound) (.evaluate e) m) (hmention : e.mention? = some mention)
    (hrole : mention.role ≠ .assign)
    (hfails : Fails (ScriptLang.Exec.readVariable mention.id mention.token) m halt) :
    m.hops.get? mention.id = none := by
  cases hdistance : m.hops.get? mention.id with
  | none => rfl
  | some distance =>
    obtain ⟨frame, hframe, hbound⟩ := h.reached hmention hdistance
    obtain ⟨value, hvalue⟩ := Option.isSome_iff_exists.mp (hbound hrole)
    obtain ⟨m', hfails⟩ := hfails
    have hread : ScriptLang.Exec.readAt m.frame distance mention.token m = .ok value m :=
      ScriptLang.Exec.readBy_of_some (by
        rw [ScriptLang.Store.getAt?, hframe, Option.bind_some, hvalue])
    rw [ScriptLang.Exec.readVariable_eq, hdistance, Option.elim_some, hread] at hfails
    cases hfails

/-- What is assigned by its address is not undefined, although the value is evaluated first. -/
theorem Begins.not_fails_writeVariable {id : Nat} {name : Token} {value : Expr} {fuel : Nat}
    {assigned : Value} {m' : ScriptLang.Machine} {halt : Halt}
    (h : Begins (Addressed hops bound) (.evaluate (.assign id name value)) m)
    (hvalue : ScriptLang.evaluate fuel value m = .ok assigned m')
    (hfails : Fails (ScriptLang.Exec.writeVariable id name assigned) m' halt) :
    m.hops.get? id = none := by
  obtain ⟨slots, r, hagrees, S, locals, hmirrors, hP⟩ := h
  obtain ⟨slots', r', hagrees', hstep, hmirrors'⟩ :=
    after_expression hagrees hmirrors (fun m hm => hP m (List.mem_cons_of_mem _ hm)) hvalue
  have hhops : m'.hops = m.hops := hstep.hops
  rw [← hhops]
  cases hdistance : m'.hops.get? id with
  | none => rfl
  | some distance =>
    obtain ⟨frame, hframe, -⟩ :=
      Reference.reached hagrees' hmirrors' (hP _ List.mem_cons_self) hdistance
    obtain ⟨m'', hfails⟩ := hfails
    have hwrite : ScriptLang.Exec.writeAt m'.frame distance name assigned m' = .ok () _ :=
      ScriptLang.Exec.writeBy_of_some (by
        rw [ScriptLang.Store.assignAt?, hframe, Option.map_some])
    rw [ScriptLang.Exec.writeVariable_eq, hdistance, Option.elim_some, hwrite] at hfails
    cases hfails

theorem define_ok (env : Env) (name : String) (value : Value) (r : Machine) :
    ∃ r', Exec.define env name value r = .ok () r' := by
  unfold Exec.define
  cases env with
  | top => exact ⟨_, rfl⟩
  | inside locals =>
    dsimp only
    cases locals.get? name with
    | none => exact ⟨_, rfl⟩
    | some location => exact ⟨_, rfl⟩

/-- Declaring a class does not fail. -/
theorem Begins.not_fails_declareClass {name : Token} {methods : List Routine} {halt : Halt}
    (h : Begins (Addressed hops bound) (.execute (.classDecl name methods)) m) :
    ¬ Fails (ScriptLang.Exec.declareClass name methods) m halt := by
  intro hfails
  obtain ⟨slots, r, hagrees, S, env, hstands, hexact, hplaced⟩ := h
  cases hplaced with
  | classDecl hfresh hmethods =>
    obtain ⟨slots₁, r₁, env₁, hagrees₁, -, hstands₁, hexact₁⟩ :=
      (sim_declare hagrees hstands hexact hfresh).of_ok rfl
    refine (sim_declareClass hagrees₁ hstands₁ hexact₁ hmethods).not_fails ?_ hfails
    -- The reference evaluator defines the name twice and adds a class in between.
    obtain ⟨r₂, hfirst⟩ := define_ok env₁ name.lexeme .nil r₁
    simp only [bind, EStateM.bind, hfirst, Exec.onStore_eq]
    exact ⟨(), define_ok env₁ name.lexeme _ _⟩

/-- Whoever finds that a name means no variable is a mention without a hop count. -/
theorem Begins.stumbles {task : Task} {name : Token} (h : Begins (Addressed hops bound) task m)
    (hstumbles : Stumbles task m name) :
    ∃ e mention, task = .evaluate e ∧ e.mention? = some mention ∧ mention.token = name ∧
      m.hops.get? mention.id = none := by
  cases hstumbles with
  | read hfails =>
    exact ⟨_, _, rfl, rfl, rfl, h.not_fails_readVariable rfl (by simp) hfails⟩
  | self hfails =>
    exact ⟨_, _, rfl, rfl, rfl, h.not_fails_readVariable rfl (by simp) hfails⟩
  | assign hvalue hfails => exact ⟨_, _, rfl, rfl, rfl, h.not_fails_writeVariable hvalue hfails⟩
  | classDecl hfails => exact absurd hfails h.not_fails_declareClass

end Mentions

end Reference

end ScriptLang
