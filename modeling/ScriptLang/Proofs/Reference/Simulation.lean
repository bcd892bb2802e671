/-
ScriptLang.Proofs.Reference.Simulation — the two evaluators do the same.

Both evaluators use up fuel call for call, so the comparison is one induction
on the fuel they share. `Simulates` is what the induction shows at one amount
of fuel, with a part for each function of the evaluators, and every construct
of the language is one lemma from `Simulates` at less fuel.

Two facts are carried along besides corresponding states. Where a statement
stands, the frame mirrors the open scopes, and it has no variables beyond
those of the innermost scope, so that a name which is fresh in the scope is
fresh in the frame. What runs in a new frame leaves all other frames alone.
-/
import ScriptLang.Proofs.Reference.Steps

namespace ScriptLang.Reference

open Binding (Scope thisScope declared Fresh parameterScope scopesAfter scopesAfter_nil declaredName?)
open Binding (Placed PlacedAll PlacedRoutine PlacedMethods)

/-! ## 1. What can be called -/

/-- Two callees correspond. -/
inductive CalleeAgrees (P : List Scope → Mention → Prop) (globals : Nat) (slots : Slots)
    (s : ScriptLang.Store) : ScriptLang.Store.Callee → Store.Callee → Prop where
  | host (provided : HostFunction) : CalleeAgrees P globals slots s (.host provided) (.host provided)
  | function {closure closure'} : ClosureAgrees P globals slots s [] closure closure' →
      CalleeAgrees P globals slots s (.function closure) (.function closure')
  | classRef (id : Nat) {info info'} : ClassAgrees P globals slots s info info' →
      CalleeAgrees P globals slots s (.classRef id info) (.classRef id info')

section Callees

variable {P : List Scope → Mention → Prop} {globals : Nat} {slots slots' : Slots}
variable {s s' : ScriptLang.Store} {t : Store} {callee : ScriptLang.Store.Callee}
variable {callee' : Store.Callee}

theorem CalleeAgrees.grow (hgrown : Grown s slots s' slots')
    (h : CalleeAgrees P globals slots s callee callee') :
    CalleeAgrees P globals slots' s' callee callee' := by
  cases h with
  | host provided => exact .host provided
  | function hclosure => exact .function (hclosure.grow hgrown)
  | classRef id hclass => exact .classRef id (hclass.grow hgrown)

/-- Corresponding callees take the same number of arguments. -/
theorem CalleeAgrees.arity (h : CalleeAgrees P globals slots s callee callee') :
    callee'.arity = callee.arity := by
  cases h with
  | host provided => rfl
  | function hclosure => rw [Store.Callee.arity, ScriptLang.Store.Callee.arity, hclosure.1]
  | classRef id hclass =>
    have hparameters : ∀ (c : ScriptLang.Closure) (d : Closure),
        ClosureAgrees P globals slots s [thisScope] c d →
        d.routine.parameters.length = c.routine.parameters.length := fun c d hclosure => by
      rw [hclosure.1]
    rw [Store.Callee.arity, ScriptLang.Store.Callee.arity,
      rel_map (hclass.2 initializerName) hparameters]

theorem rel_map_map {α β γ δ : Type} {R : α → β → Prop} {R' : γ → δ → Prop} {a : Option α}
    {b : Option β} {f : α → γ} {g : β → δ} (h : Option.Rel R a b)
    (himp : ∀ a b, R a b → R' (f a) (g b)) : Option.Rel R' (a.map f) (b.map g) := by
  cases h with
  | some h => exact .some (himp _ _ h)
  | none => exact .none

/-- A value stands for corresponding callees. -/
theorem Heap.rel_callee (h : Heap P globals slots s t) (value : Value) :
    Option.Rel (CalleeAgrees P globals slots s) (s.callee? value) (t.callee? value) := by
  cases value with
  | host id =>
    rw [ScriptLang.Store.callee?, Store.callee?, h.hosts]
    cases s.hosts[id]? with
    | none => exact .none
    | some provided => exact .some (.host provided)
  | function id => exact rel_map_map (h.function id) fun _ _ hclosure => .function hclosure
  | classRef id => exact rel_map_map (h.classInfo id) fun _ _ hclass => .classRef id hclass
  | nil | bool | number | text | object => exact .none

end Callees

/-! ## 2. What the induction shows -/

section Simulates

variable {P : List Scope → Mention → Prop} {fuel : Nat} {c : Config} {S : List Scope} {env : Env}
variable {locals : Locals}

/-- Whatever runs with an amount of fuel does the same on both sides. -/
structure Simulates (P : List Scope → Mention → Prop) (fuel : Nat) : Prop where
  statement : ∀ {c : Config} {S : List Scope} {env : Env} {s : Stmt}, Agrees P c →
    c.Stands S env → c.Exact S → Placed P S s →
    Sim P (some c.machine.frame) c (ScriptLang.execute fuel s) (execute fuel env s)
      fun c' flow out => out.1 = flow ∧ c'.Stands (scopesAfter S s) out.2 ∧
        c'.Exact (scopesAfter S s)
  statements : ∀ {c : Config} {S : List Scope} {env : Env} {body : List Stmt}, Agrees P c →
    c.Stands S env → c.Exact S → PlacedAll P S body →
    Sim P (some c.machine.frame) c (ScriptLang.executeAll fuel body) (executeAll fuel env body)
      fun _ flow flow' => flow' = flow
  loop : ∀ {c : Config} {S : List Scope} {env : Env} {condition : Expr} {body : Stmt}, Agrees P c →
    c.Stands S env → c.Exact S → (∀ m ∈ condition.mentions, P S m) → declaredName? body = none →
    Placed P S body →
    Sim P (some c.machine.frame) c (ScriptLang.executeLoop fuel condition body)
      (executeLoop fuel env condition body)
      fun c' flow flow' => flow' = flow ∧ c'.Stands S env ∧ c'.Exact S
  expression : ∀ {c : Config} {S : List Scope} {locals : Locals} {e : Expr}, Agrees P c →
    c.Mirrors S locals → (∀ m ∈ e.mentions, P S m) →
    Sim P none c (ScriptLang.evaluate fuel e) (evaluate fuel locals e) fun _ a b => b = a
  option : ∀ {c : Config} {S : List Scope} {locals : Locals} {e : Option Expr}, Agrees P c →
    c.Mirrors S locals → (∀ m ∈ Expr.mentionsOption e, P S m) →
    Sim P none c (ScriptLang.evaluateOption fuel e) (evaluateOption fuel locals e)
      fun _ a b => b = a
  expressions : ∀ {c : Config} {S : List Scope} {locals : Locals} {es : List Expr}, Agrees P c →
    c.Mirrors S locals → (∀ m ∈ Expr.mentionsAll es, P S m) →
    Sim P none c (ScriptLang.evaluateAll fuel es) (evaluateAll fuel locals es)
      fun _ a b => b = a
  call : ∀ {c : Config}, Agrees P c → ∀ (value : Value) (paren : Token) (arguments : List Value),
    Sim P none c (ScriptLang.call fuel value paren arguments) (call fuel value paren arguments)
      fun _ a b => b = a
  enter : ∀ {c : Config} {callee : ScriptLang.Store.Callee} {callee' : Store.Callee}
    {arguments : List Value}, Agrees P c →
    CalleeAgrees P c.machine.globals c.slots c.machine.store callee callee' → ∀ paren : Token,
    arguments.length = callee.arity →
    Sim P none c (ScriptLang.enter fuel callee paren arguments) (enter fuel callee' paren arguments)
      fun _ a b => b = a
  invoke : ∀ {c : Config} {closure : ScriptLang.Closure} {closure' : Closure}
    {arguments : List Value}, Agrees P c →
    ClosureAgrees P c.machine.globals c.slots c.machine.store [] closure closure' →
    arguments.length = closure.routine.parameters.length →
    Sim P none c (ScriptLang.invoke fuel closure arguments) (invoke fuel closure' arguments)
      fun _ a b => b = a

theorem Simulates.zero : Simulates P 0 where
  statement h _ _ _ := Sim.throw h .outOfFuel
  statements h _ _ _ := Sim.throw h .outOfFuel
  loop h _ _ _ _ _ := Sim.throw h .outOfFuel
  expression h _ _ := Sim.throw h .outOfFuel
  option h _ _ := Sim.throw h .outOfFuel
  expressions h _ _ := Sim.throw h .outOfFuel
  call h _ _ _ := Sim.throw h .outOfFuel
  enter h _ _ _ := Sim.throw h .outOfFuel
  invoke h _ _ := Sim.throw h .outOfFuel

/-! ## 3. Expressions -/

namespace Simulates

theorem expression_succ (ih : Simulates P fuel) {e : Expr} (hagrees : Agrees P c)
    (hmirrors : c.Mirrors S locals) (hP : ∀ m ∈ e.mentions, P S m) :
    Sim P none c (ScriptLang.evaluate (fuel + 1) e) (evaluate (fuel + 1) locals e)
      fun _ a b => b = a := by
  cases e with
  | literal id constant => exact Sim.pure hagrees rfl
  | group id inner => exact ih.expression hagrees hmirrors hP
  | unary id operator operand =>
    rw [Expr.mentions] at hP
    rw [ScriptLang.evaluate, evaluate]
    refine (ih.expression hagrees hmirrors hP).bind ?_
    rintro c₁ a b hagrees₁ - rfl
    exact sim_ofExcept hagrees₁ operator _
  | binary id left operator right =>
    rw [ScriptLang.evaluate, evaluate]
    refine (ih.expression hagrees hmirrors fun m hm => hP m (List.mem_append_left _ hm)).bind ?_
    rintro c₁ a b hagrees₁ hstep₁ rfl
    refine (ih.expression hagrees₁ (hstep₁.mirrors hmirrors)
      fun m hm => hP m (List.mem_append_right _ hm)).bind ?_
    rintro c₂ a' b' hagrees₂ - rfl
    exact sim_ofExcept hagrees₂ operator _
  | logical id left operator right =>
    rw [ScriptLang.evaluate, evaluate]
    refine (ih.expression hagrees hmirrors fun m hm => hP m (List.mem_append_left _ hm)).bind ?_
    rintro c₁ a b hagrees₁ hstep₁ rfl
    split
    · exact Sim.pure hagrees₁ rfl
    · exact ih.expression hagrees₁ (hstep₁.mirrors hmirrors)
        fun m hm => hP m (List.mem_append_right _ hm)
  | read id name => exact sim_readVariable hagrees hmirrors (hP _ (List.mem_singleton.mpr rfl))
  | assign id name value =>
    rw [ScriptLang.evaluate, evaluate]
    refine (ih.expression hagrees hmirrors fun m hm => hP m (List.mem_cons_of_mem _ hm)).bind ?_
    rintro c₁ a b hagrees₁ hstep₁ rfl
    refine (sim_writeVariable hagrees₁ (hstep₁.mirrors hmirrors) (hP _ (List.mem_cons_self ..))
      _).bind ?_
    intro c₂ _ _ hagrees₂ _ _
    exact Sim.pure hagrees₂ rfl
  | call id callee paren arguments =>
    rw [ScriptLang.evaluate, evaluate]
    refine (ih.expression hagrees hmirrors fun m hm => hP m (List.mem_append_left _ hm)).bind ?_
    rintro c₁ a b hagrees₁ hstep₁ rfl
    refine (ih.expressions hagrees₁ (hstep₁.mirrors hmirrors)
      fun m hm => hP m (List.mem_append_right _ hm)).bind ?_
    rintro c₂ a' b' hagrees₂ - rfl
    exact ih.call hagrees₂ _ paren _
  | property id object name =>
    rw [Expr.mentions] at hP
    rw [ScriptLang.evaluate, evaluate]
    refine (ih.expression hagrees hmirrors hP).bind ?_
    rintro c₁ a b hagrees₁ - rfl
    cases b with
    | object id => exact sim_readProperty hagrees₁ id name
    | nil | bool | number | text | host | function | classRef =>
      exact Sim.raise hagrees₁ name .noProperties
  | setProperty id object name value =>
    rw [ScriptLang.evaluate, evaluate]
    refine (ih.expression hagrees hmirrors fun m hm => hP m (List.mem_append_left _ hm)).bind ?_
    rintro c₁ a b hagrees₁ hstep₁ rfl
    cases b with
    | object id =>
      refine (ih.expression hagrees₁ (hstep₁.mirrors hmirrors)
        fun m hm => hP m (List.mem_append_right _ hm)).bind ?_
      rintro c₂ a' b' hagrees₂ - rfl
      refine (sim_setField hagrees₂ id name.lexeme _).bind ?_
      intro c₃ _ _ hagrees₃ _ _
      exact Sim.pure hagrees₃ rfl
    | nil | bool | number | text | host | function | classRef =>
      exact Sim.raise hagrees₁ name .noFields
  | self id keyword => exact sim_readVariable hagrees hmirrors (hP _ (List.mem_singleton.mpr rfl))

theorem option_succ (ih : Simulates P fuel) {e : Option Expr} (hagrees : Agrees P c)
    (hmirrors : c.Mirrors S locals) (hP : ∀ m ∈ Expr.mentionsOption e, P S m) :
    Sim P none c (ScriptLang.evaluateOption (fuel + 1) e) (evaluateOption (fuel + 1) locals e)
      fun _ a b => b = a := by
  cases e with
  | none => exact Sim.pure hagrees rfl
  | some e => exact ih.expression hagrees hmirrors hP

theorem expressions_succ (ih : Simulates P fuel) {es : List Expr} (hagrees : Agrees P c)
    (hmirrors : c.Mirrors S locals) (hP : ∀ m ∈ Expr.mentionsAll es, P S m) :
    Sim P none c (ScriptLang.evaluateAll (fuel + 1) es) (evaluateAll (fuel + 1) locals es)
      fun _ a b => b = a := by
  cases es with
  | nil => exact Sim.pure hagrees rfl
  | cons e rest =>
    rw [ScriptLang.evaluateAll, evaluateAll]
    refine (ih.expression hagrees hmirrors fun m hm => hP m (List.mem_append_left _ hm)).bind ?_
    rintro c₁ a b hagrees₁ hstep₁ rfl
    refine (ih.expressions hagrees₁ (hstep₁.mirrors hmirrors)
      fun m hm => hP m (List.mem_append_right _ hm)).bind ?_
    rintro c₂ a' b' hagrees₂ - rfl
    exact Sim.pure hagrees₂ rfl

/-! ## 4. Calls -/

theorem call_succ (ih : Simulates P fuel) (hagrees : Agrees P c) (value : Value) (paren : Token)
    (arguments : List Value) :
    Sim P none c (ScriptLang.call (fuel + 1) value paren arguments)
      (Reference.call (fuel + 1) value paren arguments) fun _ a b => b = a := by
  rw [ScriptLang.call, Reference.call]
  refine (Sim.get hagrees).bind ?_
  rintro c₁ _ _ hagrees₁ - ⟨rfl, rfl⟩
  have hrel := hagrees₁.heap.rel_callee value
  generalize c₁.machine.store.callee? value = callee? at hrel ⊢
  generalize c₁.reference.store.callee? value = callee'? at hrel ⊢
  cases hrel with
  | none => exact Sim.raise hagrees₁ paren .notCallable
  | @some callee callee' hboth =>
    dsimp only
    rw [hboth.arity]
    split
    · exact Sim.raise hagrees₁ paren _
    · rename_i harity
      refine (Sim.get hagrees₁).bind ?_
      rintro c₂ _ _ hagrees₂ hstep₂ ⟨rfl, rfl⟩
      rw [hagrees₂.depth]
      split
      · exact Sim.raise hagrees₂ paren _
      · refine sim_asCall hagrees₂ ?_
        intro c₃ hagrees₃ hstep₃
        have hstep := hstep₂.trans hstep₃
        refine ih.enter hagrees₃ ?_ paren (Decidable.not_not.mp harity)
        rw [hstep.globals]
        exact hboth.grow hstep.grown

theorem enter_succ (ih : Simulates P fuel) {callee : ScriptLang.Store.Callee}
    {callee' : Store.Callee} {arguments : List Value} (hagrees : Agrees P c)
    (hcallee : CalleeAgrees P c.machine.globals c.slots c.machine.store callee callee')
    (paren : Token) (harity : arguments.length = callee.arity) :
    Sim P none c (ScriptLang.enter (fuel + 1) callee paren arguments)
      (Reference.enter (fuel + 1) callee' paren arguments) fun _ a b => b = a := by
  cases hcallee with
  | host provided => exact sim_callHost hagrees provided paren arguments
  | function hclosure => exact ih.invoke hagrees hclosure harity
  | @classRef id info info' hclass =>
    rw [ScriptLang.enter, Reference.enter]
    refine (sim_addObject hagrees id).bind ?_
    rintro c₁ object _ hagrees₁ hstep₁ rfl
    have hinitializer := hclass.2 initializerName
    rw [ScriptLang.Store.Callee.arity] at harity
    generalize info.methods.get? initializerName = method? at hinitializer harity
    generalize info'.methods.get? initializerName = method'? at hinitializer
    cases hinitializer with
    | none => exact Sim.pure hagrees₁ rfl
    | some hmethod =>
      refine (sim_bindMethod hagrees₁ (hstep₁.closureAgrees hmethod) _).bind ?_
      rintro c₂ bound bound' hagrees₂ - ⟨hroutine, hbound⟩
      refine (ih.invoke hagrees₂ hbound (by rw [hroutine]; exact harity)).bind ?_
      intro c₃ _ _ hagrees₃ _ _
      exact Sim.pure hagrees₃ rfl

/-- A call runs its body in a new frame, in which the parameters get their values first. -/
theorem invoke_eq (fuel : Nat) (closure : ScriptLang.Closure) (arguments : List Value)
    (m : ScriptLang.Machine) :
    ScriptLang.invoke (fuel + 1) closure arguments m
      = (do
          let flow ← inNewFrame closure.frame (do
            defineAllHere ((closure.routine.parameters.map Token.lexeme).zip arguments)
            ScriptLang.executeAll fuel closure.routine.body)
          ScriptLang.Exec.resultOfCall closure flow) m := by
  rw [ScriptLang.invoke]
  show EStateM.bind (ScriptLang.Exec.inFrame m.store.frames.size _) _ _ = EStateM.bind _ _ m
  unfold EStateM.bind inNewFrame ScriptLang.Exec.inFrame
  dsimp only
  rw [defineAllHere_bind]
  rfl

theorem invoke_succ (ih : Simulates P fuel) {closure : ScriptLang.Closure} {closure' : Closure}
    {arguments : List Value} (hagrees : Agrees P c)
    (hclosure : ClosureAgrees P c.machine.globals c.slots c.machine.store [] closure closure')
    (harity : arguments.length = closure.routine.parameters.length) :
    Sim P none c (ScriptLang.invoke (fuel + 1) closure arguments)
      (Reference.invoke (fuel + 1) closure' arguments) fun _ a b => b = a := by
  have hkeep := hclosure
  obtain ⟨hroutine, -, S, hmirrors, hplaced, -⟩ := hclosure
  refine Sim.congr _ (do
      let flow ← (do
        let locals ← Exec.bindParameters closure'.locals
          ((closure.routine.parameters.map Token.lexeme).zip arguments)
        Reference.executeAll fuel (.inside locals) closure.routine.body)
      Exec.resultOfCall closure' flow) ?_ (invoke_eq fuel closure arguments c.machine) ?_
  · refine (sim_inNewFrame (R := fun flow flow' => flow' = flow) hagrees hmirrors ?_).bind ?_
    · intro c₁ hagrees₁ hmirrors₁ hexact₁
      refine (sim_bindParameters closure.routine.parameters arguments .empty closure'.locals hagrees₁
        hmirrors₁ hexact₁ hplaced.nodup (fun _ _ => rfl) harity).bind ?_
      rintro c₂ - locals hagrees₂ hstep₂ ⟨hmirrors₂, hexact₂⟩
      rw [← hstep₂.frame]
      exact ih.statements hagrees₂ ⟨hmirrors₂, by simp⟩ hexact₂ hplaced.body
    · rintro c₁ flow _ hagrees₁ hstep₁ rfl
      exact sim_resultOfCall hagrees₁ (hstep₁.closureAgrees hkeep) _
  · rw [Reference.invoke, hroutine, bind_assoc]

/-! ## 5. Statements -/

/-- A variable is declared, its initializer evaluated, and then it gets its value. -/
theorem var_succ (ih : Simulates P fuel) {name : Token} {initializer : Option Expr}
    (hagrees : Agrees P c) (hstands : c.Stands S env) (hexact : c.Exact S)
    (hfresh : Fresh S name.lexeme)
    (hP : ∀ m ∈ Expr.mentionsOption initializer, P (declared S name.lexeme false) m) :
    Sim P (some c.machine.frame) c (ScriptLang.execute (fuel + 1) (.var name initializer))
      (Reference.execute (fuel + 1) env (.var name initializer)) fun c' flow out =>
        out.1 = flow ∧ c'.Stands (declared S name.lexeme true) out.2 ∧
          c'.Exact (declared S name.lexeme true) := by
  rw [ScriptLang.execute, Reference.execute]
  refine (sim_declare hagrees hstands hexact hfresh).bind_right ?_
  rintro c₁ env₁ hagrees₁ hstep₁ ⟨hstands₁, hexact₁⟩
  have hlt := hagrees₁.frame_lt hstands₁.1
  refine (ih.option hagrees₁ hstands₁.1 hP).weaken.bind ?_
  rintro c₂ value _ hagrees₂ - ⟨hstep₂, rfl⟩
  rw [← hstep₁.frame, ← hstep₂.frame]
  refine (sim_define hagrees₂ (hstep₂.stands hstands₁) (hstep₂.exact hlt hexact₁) _).bind ?_
  rintro c₃ - - hagrees₃ - ⟨hstands₃, hexact₃, -⟩
  exact Sim.pure hagrees₃ ⟨rfl, hstands₃, hexact₃⟩

/-- A block runs in a new frame. -/
theorem block_succ (ih : Simulates P fuel) {body : List Stmt} (hagrees : Agrees P c)
    (hstands : c.Stands S env) (hexact : c.Exact S) (hplaced : PlacedAll P (.empty :: S) body) :
    Sim P (some c.machine.frame) c (ScriptLang.execute (fuel + 1) (.block body))
      (Reference.execute (fuel + 1) env (.block body)) fun c' flow out =>
        out.1 = flow ∧ c'.Stands S out.2 ∧ c'.Exact S := by
  have hlt := hagrees.frame_lt hstands.1
  have hbody : Sim P none c (inNewFrame c.machine.frame (ScriptLang.executeAll fuel body))
      (Reference.executeAll fuel (.inside env.locals) body) fun _ a b => b = a := by
    refine sim_inNewFrame hagrees hstands.1 ?_
    intro c₁ hagrees₁ hmirrors₁ hexact₁
    exact ih.statements hagrees₁ ⟨hmirrors₁, by simp⟩ hexact₁ hplaced
  refine Sim.congr (inNewFrame c.machine.frame (ScriptLang.executeAll fuel body)) _
    (hbody.weaken.map_right ?_) rfl rfl
  rintro c₁ flow _ - ⟨hstep₁, rfl⟩
  exact ⟨rfl, hstep₁.stands hstands, hstep₁.exact hlt hexact⟩

theorem statement_succ (ih : Simulates P fuel) {s : Stmt} (hagrees : Agrees P c)
    (hstands : c.Stands S env) (hexact : c.Exact S) (hplaced : Placed P S s) :
    Sim P (some c.machine.frame) c (ScriptLang.execute (fuel + 1) s)
      (Reference.execute (fuel + 1) env s) fun c' flow out =>
        out.1 = flow ∧ c'.Stands (scopesAfter S s) out.2 ∧ c'.Exact (scopesAfter S s) := by
  have hlt := hagrees.frame_lt hstands.1
  cases hplaced with
  | expression hP =>
    rw [ScriptLang.execute, Reference.execute]
    refine (ih.expression hagrees hstands.1 hP).weaken.bind ?_
    rintro c₁ _ _ hagrees₁ - ⟨hstep₁, -⟩
    exact Sim.pure hagrees₁ ⟨rfl, hstep₁.stands hstands, hstep₁.exact hlt hexact⟩
  | print hP =>
    rw [ScriptLang.execute, Reference.execute]
    refine (ih.expression hagrees hstands.1 hP).weaken.bind ?_
    rintro c₁ value _ hagrees₁ - ⟨hstep₁, rfl⟩
    refine (sim_printLine hagrees₁ _).weaken.bind ?_
    rintro c₂ _ _ hagrees₂ - ⟨hstep₂, -⟩
    have hstep := hstep₁.trans hstep₂
    exact Sim.pure hagrees₂ ⟨rfl, hstep.stands hstands, hstep.exact hlt hexact⟩
  | var hfresh hP => exact ih.var_succ hagrees hstands hexact hfresh hP
  | block hbody => exact ih.block_succ hagrees hstands hexact hbody
  | ifThen hP hthen hbranch =>
    rw [ScriptLang.execute, Reference.execute]
    refine (ih.expression hagrees hstands.1 hP).weaken.bind ?_
    rintro c₁ value _ hagrees₁ - ⟨hstep₁, rfl⟩
    split
    · have h := ih.statement hagrees₁ (hstep₁.stands hstands) (hstep₁.exact hlt hexact) hbranch
      rw [hstep₁.frame, scopesAfter, hthen] at h
      exact h
    · exact Sim.pure hagrees₁ ⟨rfl, hstep₁.stands hstands, hstep₁.exact hlt hexact⟩
  | ifElse hP hthen hbranch helse hbranch' =>
    rw [ScriptLang.execute, Reference.execute]
    refine (ih.expression hagrees hstands.1 hP).weaken.bind ?_
    rintro c₁ value _ hagrees₁ - ⟨hstep₁, rfl⟩
    split
    · have h := ih.statement hagrees₁ (hstep₁.stands hstands) (hstep₁.exact hlt hexact) hbranch
      rw [hstep₁.frame, scopesAfter, hthen] at h
      exact h
    · have h := ih.statement hagrees₁ (hstep₁.stands hstands) (hstep₁.exact hlt hexact) hbranch'
      rw [hstep₁.frame, scopesAfter, helse] at h
      exact h
  | loop hP hbody hplaced =>
    rw [ScriptLang.execute, Reference.execute]
    refine (ih.loop hagrees hstands hexact hP hbody hplaced).map_right ?_
    rintro c₁ flow _ - ⟨rfl, hstands₁, hexact₁⟩
    exact ⟨rfl, hstands₁, hexact₁⟩
  | @function _ routine hfresh hroutine =>
    rw [ScriptLang.execute, Reference.execute]
    refine (sim_declare hagrees hstands hexact hfresh).bind_right ?_
    rintro c₁ env₁ hagrees₁ hstep₁ ⟨hstands₁, hexact₁⟩
    rw [← hstep₁.frame, ← bind_assoc]
    refine (sim_declareFunction hagrees₁ hstands₁ hexact₁ hroutine).bind ?_
    rintro c₂ - - hagrees₂ - ⟨hstands₂, hexact₂⟩
    exact Sim.pure hagrees₂ ⟨rfl, hstands₂, hexact₂⟩
  | ret hP =>
    rw [ScriptLang.execute, Reference.execute]
    refine (ih.option hagrees hstands.1 hP).weaken.bind ?_
    rintro c₁ value _ hagrees₁ - ⟨hstep₁, rfl⟩
    exact Sim.pure hagrees₁ ⟨rfl, hstep₁.stands hstands, hstep₁.exact hlt hexact⟩
  | @classDecl _ name methods hfresh hmethods =>
    rw [ScriptLang.execute, Reference.execute]
    refine (sim_declare hagrees hstands hexact hfresh).bind_right ?_
    rintro c₁ env₁ hagrees₁ hstep₁ ⟨hstands₁, hexact₁⟩
    have h := sim_declareClass hagrees₁ hstands₁ hexact₁ hmethods
    rw [hstep₁.frame] at h
    refine Sim.congr _ (_ >>= fun _ => Pure.pure (.normal, env₁)) (h.bind ?_) rfl
      (by simp only [bind_assoc])
    rintro c₂ - - hagrees₂ - ⟨hstands₂, hexact₂⟩
    exact Sim.pure hagrees₂ ⟨rfl, hstands₂, hexact₂⟩

theorem statements_succ (ih : Simulates P fuel) {body : List Stmt} (hagrees : Agrees P c)
    (hstands : c.Stands S env) (hexact : c.Exact S) (hplaced : PlacedAll P S body) :
    Sim P (some c.machine.frame) c (ScriptLang.executeAll (fuel + 1) body)
      (Reference.executeAll (fuel + 1) env body) fun _ flow flow' => flow' = flow := by
  cases hplaced with
  | nil => exact Sim.pure hagrees rfl
  | cons hstatement hrest =>
    rw [ScriptLang.executeAll, Reference.executeAll]
    refine (ih.statement hagrees hstands hexact hstatement).bind ?_
    rintro c₁ flow ⟨flow', env₁⟩ hagrees₁ hstep₁ ⟨rfl, hstands₁, hexact₁⟩
    cases flow' with
    | normal =>
      rw [← hstep₁.frame]
      exact ih.statements hagrees₁ hstands₁ hexact₁ hrest
    | returned value => exact Sim.pure hagrees₁ rfl

theorem loop_succ (ih : Simulates P fuel) {condition : Expr} {body : Stmt} (hagrees : Agrees P c)
    (hstands : c.Stands S env) (hexact : c.Exact S) (hP : ∀ m ∈ condition.mentions, P S m)
    (hbody : declaredName? body = none) (hplaced : Placed P S body) :
    Sim P (some c.machine.frame) c (ScriptLang.executeLoop (fuel + 1) condition body)
      (Reference.executeLoop (fuel + 1) env condition body)
      fun c' flow flow' => flow' = flow ∧ c'.Stands S env ∧ c'.Exact S := by
  have hlt := hagrees.frame_lt hstands.1
  rw [ScriptLang.executeLoop, Reference.executeLoop]
  refine (ih.expression hagrees hstands.1 hP).weaken.bind ?_
  rintro c₁ value _ hagrees₁ - ⟨hstep₁, rfl⟩
  have hstands₁ := hstep₁.stands hstands
  have hexact₁ := hstep₁.exact hlt hexact
  split
  · have h := ih.statement hagrees₁ hstands₁ hexact₁ hplaced
    rw [scopesAfter, hbody, hstep₁.frame] at h
    refine h.bind ?_
    rintro c₂ flow ⟨flow', env₂⟩ hagrees₂ hstep₂ ⟨rfl, hstands₂, hexact₂⟩
    cases flow' with
    | normal =>
      have hagain := ih.loop hagrees₂ (hstep₂.stands hstands₁) hexact₂ hP hbody hplaced
      rw [hstep₂.frame, hstep₁.frame] at hagain
      exact hagain
    | returned value => exact Sim.pure hagrees₂ ⟨rfl, hstep₂.stands hstands₁, hexact₂⟩
  · exact Sim.pure hagrees₁ ⟨rfl, hstands₁, hexact₁⟩

end Simulates

/-- With every amount of fuel, whatever runs does the same on both sides. -/
theorem simulates (P : List Scope → Mention → Prop) (fuel : Nat) : Simulates P fuel := by
  induction fuel with
  | zero => exact Simulates.zero
  | succ fuel ih =>
    exact ⟨ih.statement_succ, ih.statements_succ, ih.loop_succ, ih.expression_succ, ih.option_succ,
      ih.expressions_succ, ih.call_succ, ih.enter_succ, ih.invoke_succ⟩

/-! ## 6. Scripts -/

theorem sim_executeScript (fuel : Nat) {statements : List Stmt} (hagrees : Agrees P c)
    (hstands : c.Stands [] .top) (hplaced : PlacedAll P [] statements) :
    Sim P (some c.machine.frame) c (ScriptLang.executeScript fuel statements)
      (executeScript fuel statements) fun _ _ _ => True := by
  induction statements generalizing c with
  | nil => exact Sim.pure hagrees trivial
  | cons s rest ih =>
    cases hplaced with
    | cons hstatement hrest =>
      rw [scopesAfter_nil] at hrest
      rw [ScriptLang.executeScript, executeScript]
      refine ((simulates P fuel).statement hagrees hstands (fun _ h => absurd h (by simp))
        hstatement).bind ?_
      rintro c₁ _ _ hagrees₁ hstep₁ -
      rw [← hstep₁.frame]
      exact ih hagrees₁ (hstep₁.stands hstands) hrest

end Simulates

end ScriptLang.Reference
