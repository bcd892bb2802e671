/-
ScriptLang.Proofs.Reference.Respelled — runs do not depend on the spelling of
local variables.

The reference evaluator runs the same script in two spellings side by side.
Both runs make the same values at the same places: globals, cells, instances
and what is printed are equal throughout. Only what was captured differs, the
functions and classes of the two runs being the same up to spelling
(`Alike`). So the state of the second run is that of the first with other
functions and classes (`Machine.twin`).

A name is spelled out in one place only, the fault about an undefined variable.
A variable with two spellings never gives it: it has a value as soon as it can
be read (`LocalsAlike`).
-/
import ScriptLang.Proofs.Binding.Renaming
import ScriptLang.Proofs.Reference.Scripts

namespace ScriptLang.Reference

open Binding (Spellings Linked Paired declareBoth Declarable SameVariable InInitializer
  RespelledExpr RespelledExprs RespelledParameters Respelled RespelledAll RespelledRoutine RespelledMethods)

/-! ## 1. Locations -/

/-- A location has a value. -/
def Store.Valued (s : Store) (location : Nat) : Prop :=
  ∃ value, s.cells[location]? = some (some value)

/-- Locations go on to exist, and those that have values to have values. -/
structure Store.Lasts (s s' : Store) : Prop where
  size : s.cells.size ≤ s'.cells.size
  valued : ∀ location, s.Valued location → s'.Valued location

/-- Two mentions lead to the same place. If they are spelled differently this is a location, and
if they read it, it has a value. -/
structure Meets (s : Store) (locals locals' : Locals) (m m' : Mention) : Prop where
  line : m'.token.line = m.token.line
  location : locals'.get? m'.token.lexeme = locals.get? m.token.lexeme
  spelled : m'.token.lexeme = m.token.lexeme ∨ ∃ location,
    locals.get? m.token.lexeme = some location ∧ (m.role = .assign ∨ s.Valued location)

/-- Two maps of local variables give the same locations to names that mean the same, and those
with two spellings have values. -/
def LocalsAlike (s : Store) (Γ : Spellings) (locals locals' : Locals) : Prop :=
  ∀ name name', Linked Γ name name' → locals'.get? name' = locals.get? name ∧
    (name' = name ∨ ∃ location, locals.get? name = some location ∧ s.Valued location)

/-- Two statements stand at the same place. -/
inductive EnvAlike (s : Store) : Spellings → Env → Env → Prop where
  | top : EnvAlike s [] .top .top
  | inside {pairs Γ locals locals'} : LocalsAlike s (pairs :: Γ) locals locals' →
      EnvAlike s (pairs :: Γ) (.inside locals) (.inside locals')

section Locations

variable {s s' s'' : Store} {Γ : Spellings} {locals locals' : Locals} {env env' : Env}

theorem Store.Lasts.refl (s : Store) : s.Lasts s := ⟨Nat.le_refl _, fun _ h => h⟩

theorem Store.Lasts.trans (h : s.Lasts s') (h' : s'.Lasts s'') : s.Lasts s'' :=
  ⟨Nat.le_trans h.size h'.size, fun location hvalued => h'.valued _ (h.valued location hvalued)⟩

theorem Store.Lasts.of_cells (h : s'.cells = s.cells) : s.Lasts s' := by
  refine ⟨Nat.le_of_eq (by rw [h]), ?_⟩
  rintro location ⟨value, hvalue⟩
  exact ⟨value, by rw [h, hvalue]⟩

/-- New cells leave the old ones alone. -/
theorem Store.lasts_push (s : Store) (cell : Option Value) :
    s.Lasts { s with cells := s.cells.push cell } := by
  refine ⟨by simp, ?_⟩
  rintro location ⟨value, hvalue⟩
  refine ⟨value, ?_⟩
  have hlt : location < s.cells.size := (Array.getElem?_eq_some_iff.mp hvalue).1
  rw [Array.getElem?_push, if_neg (Nat.ne_of_lt hlt), hvalue]

theorem Store.lasts_write (s : Store) (location : Nat) (value : Value) :
    s.Lasts (s.write location value) := by
  refine ⟨by simp [Store.write], ?_⟩
  rintro other ⟨old, hold⟩
  by_cases heq : location = other
  · subst heq
    have hlt : location < s.cells.size := (Array.getElem?_eq_some_iff.mp hold).1
    exact ⟨value, by simp [Store.write, hlt]⟩
  · exact ⟨old, by simp [Store.write, heq, hold]⟩

theorem Store.valued_write {location : Nat} (hlt : location < s.cells.size) (value : Value) :
    (s.write location value).Valued location :=
  ⟨value, by simp [Store.write, hlt]⟩

theorem LocalsAlike.lasts (h : LocalsAlike s Γ locals locals') (hlasts : s.Lasts s') :
    LocalsAlike s' Γ locals locals' := by
  intro name name' hlinked
  obtain ⟨hlocation, hspelled⟩ := h name name' hlinked
  refine ⟨hlocation, hspelled.imp_right ?_⟩
  rintro ⟨location, hfound, hvalued⟩
  exact ⟨location, hfound, hlasts.valued location hvalued⟩

theorem EnvAlike.lasts (h : EnvAlike s Γ env env') (hlasts : s.Lasts s') :
    EnvAlike s' Γ env env' := by
  cases h with
  | top => exact .top
  | inside hlocals => exact .inside (hlocals.lasts hlasts)

theorem EnvAlike.inForce (h : EnvAlike s Γ env env') : LocalsAlike s Γ env.locals env'.locals := by
  cases h with
  | top =>
    intro name name' hlinked
    obtain rfl : name = name' := hlinked
    exact ⟨rfl, .inl rfl⟩
  | inside hlocals => exact hlocals

/-- In a new block the same variables are in force. -/
theorem EnvAlike.block (h : EnvAlike s Γ env env') :
    EnvAlike s ([] :: Γ) (.inside env.locals) (.inside env'.locals) :=
  .inside h.inForce

/-- A variable with a value is added under its two spellings. -/
theorem LocalsAlike.insert {pairs : List (String × String)}
    (h : LocalsAlike s (pairs :: Γ) locals locals') {name name' : String} {location : Nat}
    (hvalued : s.Valued location) :
    LocalsAlike s (((name, name') :: pairs) :: Γ) (locals.insert name location)
      (locals'.insert name' location) := by
  rintro other other' (⟨rfl, rfl⟩ | ⟨hne, hne', hlinked⟩)
  · simp [NameMap.get?_insert, hvalued]
  · obtain ⟨hlocation, hspelled⟩ := h other other' hlinked
    rw [NameMap.get?_insert, NameMap.get?_insert, if_neg hne, if_neg hne']
    exact ⟨hlocation, hspelled⟩

/-- Names that mean the same lead to the same place. -/
theorem LocalsAlike.meets (h : LocalsAlike s Γ locals locals') {I : Nat → Nat → Prop}
    {m m' : Mention} (hsame : SameVariable I Γ m m') : Meets s locals locals' m m' := by
  obtain ⟨hlocation, hspelled⟩ := h _ _ hsame.linked
  refine ⟨hsame.line, hlocation, hspelled.imp_right ?_⟩
  rintro ⟨location, hfound, hvalued⟩
  exact ⟨location, hfound, .inr hvalued⟩

/-- In the initializer of a variable they do so as well. -/
theorem LocalsAlike.meets_initializer {pairs : List (String × String)} {I : Nat → Nat → Prop}
    (h : LocalsAlike s (pairs :: Γ) locals locals') {name name' : String} {location : Nat}
    {m m' : Mention} (hsame : InInitializer I (pairs :: Γ) name name' m m') :
    Meets s (locals.insert name location) (locals'.insert name' location) m m' := by
  obtain ⟨⟨-, hline, hlinked⟩, hunread⟩ := hsame
  rcases hlinked with ⟨hname, hname'⟩ | ⟨hne, hne', hlinked⟩
  · refine ⟨hline, by rw [hname, hname', NameMap.get?_insert, NameMap.get?_insert]; simp, ?_⟩
    rcases hunread with hassign | hequal | hother
    · refine .inr ⟨location, ?_, .inl hassign⟩
      rw [hname, NameMap.get?_insert, if_pos rfl]
    · exact .inl hequal
    · exact absurd hname hother
  · obtain ⟨hlocation, hspelled⟩ := h _ _ hlinked
    refine ⟨hline, ?_, ?_⟩
    · rw [NameMap.get?_insert, NameMap.get?_insert, if_neg hne, if_neg hne', hlocation]
    · refine hspelled.imp_right ?_
      rintro ⟨found, hfound, hvalued⟩
      exact ⟨found, by rw [NameMap.get?_insert, if_neg hne, hfound], .inr hvalued⟩

theorem Meets.lasts {m m' : Mention} (h : Meets s locals locals' m m') (hlasts : s.Lasts s') :
    Meets s' locals locals' m m' := by
  refine ⟨h.line, h.location, h.spelled.imp_right ?_⟩
  rintro ⟨location, hfound, hreads⟩
  exact ⟨location, hfound, hreads.imp_right (hlasts.valued location)⟩

/-- A variable has been declared under its two spellings and need not have a value yet. -/
inductive Begun (s : Store) (name name' : String) : Spellings → Env → Env → Prop where
  | top : name = name' → Begun s name name' [] .top .top
  | inside {pairs Γ locals locals' location} : LocalsAlike s (pairs :: Γ) locals locals' →
      location < s.cells.size →
      Begun s name name' (pairs :: Γ) (.inside (locals.insert name location))
        (.inside (locals'.insert name' location))

theorem Begun.lasts {name name' : String} (h : Begun s name name' Γ env env')
    (hlasts : s.Lasts s') : Begun s' name name' Γ env env' := by
  cases h with
  | top hequal => exact .top hequal
  | inside hlocals hlt => exact .inside (hlocals.lasts hlasts) (Nat.lt_of_lt_of_le hlt hlasts.size)

/-- In the initializer of a variable, names that mean the same lead to the same place. -/
theorem Begun.meets {name name' : String} (h : Begun s name name' Γ env env')
    {I : Nat → Nat → Prop} {m m' : Mention} (hsame : InInitializer I Γ name name' m m') :
    Meets s env.locals env'.locals m m' := by
  cases h with
  | top _ => exact EnvAlike.top.inForce.meets hsame.toSameVariable
  | inside hlocals _ => exact hlocals.meets_initializer hsame

/-- A name with one spelling may be captured before it has a value. -/
theorem Begun.captured {name : String} (h : Begun s name name Γ env env') :
    LocalsAlike s (declareBoth Γ name name) env.locals env'.locals := by
  cases h with
  | top _ => exact EnvAlike.top.inForce
  | inside hlocals _ =>
    rintro other other' (⟨rfl, rfl⟩ | ⟨hne, hne', hlinked⟩)
    · simp [Env.locals, NameMap.get?_insert]
    · simpa [Env.locals, NameMap.get?_insert, hne, hne'] using hlocals other other' hlinked

end Locations

/-! ## 2. Stores -/

/-- The functions and classes of another run. -/
structure Others where
  functions : Array Closure
  classes : Array ClassInfo

/-- The same store with other functions and classes. -/
def Store.twin (s : Store) (o : Others) : Store :=
  { s with functions := o.functions, classes := o.classes }

/-- The same machine with other functions and classes. -/
def Machine.twin (m : Machine) (o : Others) : Machine :=
  { m with store := m.store.twin o }

section Alike

variable (I : Nat → Nat → Prop)

/-- Two methods are the same up to spelling. Where they run, `this` is known as well. -/
structure MethodAlike (s : Store) (c c' : Closure) : Prop where
  isInitializer : c'.isInitializer = c.isInitializer
  respelled : ∃ Γ, LocalsAlike s Γ c.locals c'.locals ∧
    RespelledRoutine I ([(selfName, selfName)] :: Γ) c.routine c'.routine

/-- Two functions, or methods that are bound to an instance, are the same up to spelling. -/
structure FunctionAlike (s : Store) (c c' : Closure) : Prop where
  isInitializer : c'.isInitializer = c.isInitializer
  respelled : ∃ Γ, LocalsAlike s Γ c.locals c'.locals ∧ RespelledRoutine I Γ c.routine c'.routine
  self : c.isInitializer = true → c'.locals.get? selfName = c.locals.get? selfName

/-- Two classes are the same up to spelling. -/
structure ClassAlike (s : Store) (c c' : ClassInfo) : Prop where
  name : c'.name = c.name
  method : ∀ name, Option.Rel (MethodAlike I s) (c.methods.get? name) (c'.methods.get? name)

/-- The functions and classes of two runs are the same up to spelling. -/
structure Alike (s : Store) (o : Others) : Prop where
  functionCount : o.functions.size = s.functions.size
  function : ∀ id : Nat, Option.Rel (FunctionAlike I s) s.functions[id]? o.functions[id]?
  classCount : o.classes.size = s.classes.size
  classInfo : ∀ id : Nat, Option.Rel (ClassAlike I s) s.classes[id]? o.classes[id]?

/-- Two callees are the same up to spelling. -/
inductive CalleeAlike (s : Store) : Store.Callee → Store.Callee → Prop where
  | host {provided} : CalleeAlike s (.host provided) (.host provided)
  | function {c c'} : FunctionAlike I s c c' → CalleeAlike s (.function c) (.function c')
  | classRef {id c c'} : ClassAlike I s c c' → CalleeAlike s (.classRef id c) (.classRef id c')

end Alike

section Stores

variable {I : Nat → Nat → Prop} {s s' : Store} {o : Others} {c c' : Closure}

theorem MethodAlike.lasts (h : MethodAlike I s c c') (hlasts : s.Lasts s') :
    MethodAlike I s' c c' := by
  obtain ⟨Γ, hlocals, hroutine⟩ := h.respelled
  exact ⟨h.isInitializer, Γ, hlocals.lasts hlasts, hroutine⟩

theorem FunctionAlike.lasts (h : FunctionAlike I s c c') (hlasts : s.Lasts s') :
    FunctionAlike I s' c c' := by
  obtain ⟨Γ, hlocals, hroutine⟩ := h.respelled
  exact ⟨h.isInitializer, ⟨Γ, hlocals.lasts hlasts, hroutine⟩, h.self⟩

theorem ClassAlike.lasts {c c' : ClassInfo} (h : ClassAlike I s c c') (hlasts : s.Lasts s') :
    ClassAlike I s' c c' :=
  ⟨h.name, fun name => rel_imp (h.method name) fun _ _ hmethod => hmethod.lasts hlasts⟩

/-- Functions and classes stay the same up to spelling while other things change. -/
theorem Alike.lasts (h : Alike I s o) (hlasts : s.Lasts s')
    (hfunctions : s'.functions = s.functions) (hclasses : s'.classes = s.classes) : Alike I s' o := by
  refine ⟨by rw [hfunctions, h.functionCount], ?_, by rw [hclasses, h.classCount], ?_⟩
  · intro id
    rw [hfunctions]
    exact rel_imp (h.function id) fun _ _ hfunction => hfunction.lasts hlasts
  · intro id
    rw [hclasses]
    exact rel_imp (h.classInfo id) fun _ _ hclass => hclass.lasts hlasts

theorem Alike.addFunction (h : Alike I s o) (hfunction : FunctionAlike I s c c') :
    Alike I (s.addFunction c).2 { o with functions := o.functions.push c' } := by
  have hlasts : s.Lasts (s.addFunction c).2 := .of_cells rfl
  refine ⟨by simp [Store.addFunction, h.functionCount], ?_, h.classCount, ?_⟩
  · intro id
    simp only [Store.addFunction, Array.getElem?_push, h.functionCount]
    split
    · exact .some (hfunction.lasts hlasts)
    · exact rel_imp (h.function id) fun _ _ hold => hold.lasts hlasts
  · intro id
    exact rel_imp (h.classInfo id) fun _ _ hold => hold.lasts hlasts

theorem Alike.addClass (h : Alike I s o) {c c' : ClassInfo} (hclass : ClassAlike I s c c') :
    Alike I (s.addClass c).2 { o with classes := o.classes.push c' } := by
  have hlasts : s.Lasts (s.addClass c).2 := .of_cells rfl
  refine ⟨h.functionCount, ?_, by simp [Store.addClass, h.classCount], ?_⟩
  · intro id
    exact rel_imp (h.function id) fun _ _ hold => hold.lasts hlasts
  · intro id
    simp only [Store.addClass, Array.getElem?_push, h.classCount]
    split
    · exact .some (hclass.lasts hlasts)
    · exact rel_imp (h.classInfo id) fun _ _ hold => hold.lasts hlasts

theorem name_respelled {Γ : Spellings} {r r' : Routine} (h : RespelledRoutine I Γ r r') :
    r'.name = r.name := by
  cases h
  rfl

theorem length_parameters {pairs final : List (String × String)} {ps ps' : List Token}
    (h : RespelledParameters pairs ps ps' final) : ps'.length = ps.length := by
  induction h with
  | nil => rfl
  | cons _ _ ih => rw [List.length_cons, List.length_cons, ih]

theorem arity_respelled {Γ : Spellings} {r r' : Routine} (h : RespelledRoutine I Γ r r') :
    r'.parameters.length = r.parameters.length := by
  cases h with
  | mk hparameters _ => exact length_parameters hparameters

theorem CalleeAlike.arity {c c' : Store.Callee} (h : CalleeAlike I s c c') :
    c'.arity = c.arity := by
  cases h with
  | host => rfl
  | function hfunction =>
    obtain ⟨Γ, -, hroutine⟩ := hfunction.respelled
    exact arity_respelled hroutine
  | classRef hclass =>
    refine congrArg (Option.getD · 0) (rel_map (hclass.method initializerName) ?_)
    rintro _ _ ⟨-, Γ, -, hroutine⟩
    exact arity_respelled hroutine

theorem Alike.callee (h : Alike I s o) (value : Value) :
    Option.Rel (CalleeAlike I s) (s.callee? value) ((s.twin o).callee? value) := by
  cases value with
  | nil | bool | number | text | object => exact .none
  | host id =>
    change Option.Rel _ (s.hosts[id]?.map _) (s.hosts[id]?.map _)
    cases s.hosts[id]? with
    | none => exact .none
    | some provided => exact .some .host
  | function id => exact rel_map_map (h.function id) fun _ _ hfunction => .function hfunction
  | classRef id => exact rel_map_map (h.classInfo id) fun _ _ hclass => .classRef hclass

theorem Alike.methodOf (h : Alike I s o) (object : Nat) (name : String) :
    Option.Rel (MethodAlike I s) (s.methodOf? object name) ((s.twin o).methodOf? object name) := by
  unfold Store.methodOf?
  change Option.Rel _ (s.objects[object]?.bind _) (s.objects[object]?.bind _)
  cases s.objects[object]? with
  | none => exact .none
  | some found =>
    have hclass := h.classInfo found.classId
    change Option.Rel _ (s.classes[found.classId]?.bind _) (o.classes[found.classId]?.bind _)
    generalize s.classes[found.classId]? = info, o.classes[found.classId]? = info' at hclass
    cases hclass with
    | none => exact .none
    | some hclass => exact hclass.method name

theorem Alike.className (h : Alike I s o) (id : Nat) : (s.twin o).className id = s.className id :=
  congrArg (Option.getD · "") (rel_map (h.classInfo id) fun _ _ hclass => hclass.name)

/-- Values look the same in both runs. -/
theorem Alike.display (h : Alike I s o) (value : Value) :
    (s.twin o).display value = s.display value := by
  cases value with
  | nil | bool | number | text | host => rfl
  | function id =>
    have hname : o.functions[id]?.map (·.routine.name.lexeme) =
        s.functions[id]?.map (·.routine.name.lexeme) := by
      refine rel_map (h.function id) ?_
      rintro _ _ ⟨-, ⟨Γ, -, hroutine⟩, -⟩
      exact congrArg Token.lexeme (name_respelled hroutine)
    change "<fn " ++ (o.functions[id]?.map _).getD "" ++ ">" = _
    rw [hname]
    rfl
  | classRef id => exact h.className id
  | object id =>
    have hname : (s.twin o).className = s.className := funext h.className
    unfold Store.display
    dsimp only
    rw [hname]
    rfl

/-- Methods that are bound to the same instance are the same up to spelling. -/
theorem MethodAlike.bound (h : MethodAlike I s c c') (o : Others) (object : Nat) :
    FunctionAlike I (s.bindMethod c object).2 (s.bindMethod c object).1
      ((s.twin o).bindMethod c' object).1 := by
  obtain ⟨Γ, hlocals, hroutine⟩ := h.respelled
  have hvalued : (s.bindMethod c object).2.Valued s.cells.size :=
    ⟨.object object, by simp [Store.bindMethod, Store.addValue]⟩
  have hinside : LocalsAlike (s.bindMethod c object).2 ([] :: Γ) c.locals c'.locals :=
    hlocals.lasts (s.lasts_push (some (.object object)))
  refine ⟨h.isInitializer, ⟨_, hinside.insert hvalued, hroutine⟩, fun _ => ?_⟩
  change (c'.locals.insert selfName s.cells.size).get? selfName =
    (c.locals.insert selfName s.cells.size).get? selfName
  rw [NameMap.get?_insert, NameMap.get?_insert, if_pos rfl, if_pos rfl]

end Stores

/-! ## 3. Steps -/

section Steps

variable (I : Nat → Nat → Prop)

/-- What the first does on a machine, the second does on its twin: it ends in the same way, on a
twin of the machine on which the first one ends. -/
def Goes {α β : Type} (x : Exec α) (y : Exec β) (m : Machine) (o : Others)
    (Q : Store → α → β → Prop) : Prop :=
  match x m with
  | .ok a m₁ => ∃ b o₁, y (m.twin o) = .ok b (m₁.twin o₁) ∧ Alike I m₁.store o₁ ∧
      m.store.Lasts m₁.store ∧ Q m₁.store a b
  | .error halt m₁ => ∃ o₁, y (m.twin o) = .error halt (m₁.twin o₁) ∧ Alike I m₁.store o₁ ∧
      m.store.Lasts m₁.store

/-- Both give the same. -/
def Equally {α : Type} : Store → α → α → Prop := fun _ a b => b = a

variable {I} {α β γ δ : Type} {m : Machine} {o : Others}

namespace Goes

theorem pure {Q : Store → α → β → Prop} {a : α} {b : β} (h : Alike I m.store o)
    (hQ : Q m.store a b) : Goes I (Pure.pure a) (Pure.pure b) m o Q :=
  ⟨b, o, rfl, h, .refl _, hQ⟩

theorem throw {Q : Store → α → β → Prop} (h : Alike I m.store o) (halt : Halt) :
    Goes I (MonadExcept.throw halt) (MonadExcept.throw halt) m o Q :=
  ⟨o, rfl, h, .refl _⟩

theorem raise {Q : Store → α → β → Prop} (h : Alike I m.store o) {t t' : Token}
    (hline : t'.line = t.line) (cause : RuntimeCause) :
    Goes I (Exec.raise t cause) (Exec.raise t' cause) m o Q := by
  unfold Exec.raise
  rw [hline]
  exact throw h _

/-- Both look at the machine they run on. -/
theorem get {f : Machine → Exec α} {g : Machine → Exec β} {Q : Store → α → β → Prop}
    (h : Goes I (f m) (g (m.twin o)) m o Q) :
    Goes I (MonadState.get >>= f) (MonadState.get >>= g) m o Q := h

theorem bind {x : Exec α} {y : Exec β} {f : α → Exec γ} {g : β → Exec δ}
    {Q : Store → α → β → Prop} {R : Store → γ → δ → Prop}
    (h : Goes I x y m o Q)
    (hrest : ∀ m₁ o₁ a b, Alike I m₁.store o₁ → m.store.Lasts m₁.store → Q m₁.store a b →
      Goes I (f a) (g b) m₁ o₁ R) :
    Goes I (x >>= f) (y >>= g) m o R := by
  unfold Goes at h ⊢
  change match EStateM.bind x f m with | .ok a m₁ => _ | .error halt m₁ => _
  unfold EStateM.bind
  cases hx : x m with
  | error halt m₁ =>
    rw [hx] at h
    obtain ⟨o₁, hy, halike, hlasts⟩ := h
    refine ⟨o₁, ?_, halike, hlasts⟩
    change EStateM.bind y g (m.twin o) = _
    rw [EStateM.bind, hy]
  | ok a m₁ =>
    rw [hx] at h
    obtain ⟨b, o₁, hy, halike, hlasts, hQ⟩ := h
    have hthen := hrest m₁ o₁ a b halike hlasts hQ
    have hbind : (y >>= g) (m.twin o) = g b (m₁.twin o₁) := by
      change EStateM.bind y g (m.twin o) = _
      rw [EStateM.bind, hy]
    unfold Goes at hthen
    dsimp only
    cases hf : f a m₁ with
    | error halt m₂ =>
      rw [hf] at hthen
      obtain ⟨o₂, hg, halike₂, hlasts₂⟩ := hthen
      exact ⟨o₂, hbind.trans hg, halike₂, hlasts.trans hlasts₂⟩
    | ok c m₂ =>
      rw [hf] at hthen
      obtain ⟨d, o₂, hg, halike₂, hlasts₂, hR⟩ := hthen
      exact ⟨d, o₂, hbind.trans hg, halike₂, hlasts.trans hlasts₂, hR⟩

/-- What both give is the same, and both go on with it. -/
theorem andThen {x y : Exec α} {f : α → Exec γ} {g : α → Exec δ}
    {R : Store → γ → δ → Prop} (h : Goes I x y m o Equally)
    (hrest : ∀ m₁ o₁ a, Alike I m₁.store o₁ → m.store.Lasts m₁.store → Goes I (f a) (g a) m₁ o₁ R) :
    Goes I (x >>= f) (y >>= g) m o R := by
  refine h.bind fun m₁ o₁ a b halike hlasts hequal => ?_
  obtain rfl : b = a := hequal
  exact hrest m₁ o₁ b halike hlasts

/-- A step that both runs take in the same way. -/
theorem step {change change' : Store → α × Store} {Q : Store → α → α → Prop}
    {o₁ : Others}
    (hsame : change' (m.store.twin o) = ((change m.store).1, (change m.store).2.twin o₁))
    (halike : Alike I (change m.store).2 o₁) (hlasts : m.store.Lasts (change m.store).2)
    (hQ : Q (change m.store).2 (change m.store).1 (change m.store).1) :
    Goes I (Exec.onStore change) (Exec.onStore change') m o Q := by
  unfold Goes
  rw [Exec.onStore_eq]
  refine ⟨_, o₁, ?_, halike, hlasts, hQ⟩
  rw [Exec.onStore_eq]
  change EStateM.Result.ok (change' (m.store.twin o)).1
    { m.twin o with store := (change' (m.store.twin o)).2 } = _
  rw [hsame]
  rfl

theorem asCall {x : Exec α} {y : Exec β} {Q : α → β → Prop}
    (h : Goes I x y { m with depth := m.depth + 1 } o fun _ => Q) :
    Goes I (Exec.asCall x) (Exec.asCall y) m o fun _ => Q := by
  unfold Goes at h ⊢
  unfold Exec.asCall
  cases hx : x { m with depth := m.depth + 1 } with
  | error halt m₁ =>
    rw [hx] at h
    obtain ⟨o₁, hy, halike, hlasts⟩ := h
    refine ⟨o₁, ?_, halike, hlasts⟩
    change (match y ({ m with depth := m.depth + 1 }.twin o) with
      | .ok a m => EStateM.Result.ok a { m with depth := m.depth - 1 }
      | .error halt m => .error halt { m with depth := m.depth - 1 }) = _
    rw [hy]
    rfl
  | ok a m₁ =>
    rw [hx] at h
    obtain ⟨b, o₁, hy, halike, hlasts, hQ⟩ := h
    refine ⟨b, o₁, ?_, halike, hlasts, hQ⟩
    change (match y ({ m with depth := m.depth + 1 }.twin o) with
      | .ok a m => EStateM.Result.ok a { m with depth := m.depth - 1 }
      | .error halt m => .error halt { m with depth := m.depth - 1 }) = _
    rw [hy]
    rfl

theorem ofExcept (h : Alike I m.store o) (token : Token) (result : Except RuntimeCause α) :
    Goes I (Exec.ofExcept token result) (Exec.ofExcept token result) m o Equally := by
  cases result with
  | ok a => exact pure h rfl
  | error cause => exact raise h rfl cause

theorem printLine (h : Alike I m.store o) (value : Value) :
    Goes I (Exec.printLine value) (Exec.printLine value) m o Equally := by
  have hdisplay : (m.twin o).store.display value = m.store.display value := h.display value
  have hsink : (m.twin o).sink = m.sink := rfl
  unfold Goes Exec.printLine
  rw [hdisplay, hsink]
  rcases m.sink.write (Text.Utf8.encode (m.store.display value ++ "\n")) with ⟨fault?, sink⟩
  cases fault? with
  | none => exact ⟨_, o, rfl, h, .refl _, rfl⟩
  | some message => exact ⟨o, rfl, h, .refl _⟩

theorem flush (h : Alike I m.store o) : Goes I Exec.flush Exec.flush m o Equally := by
  have hsink : (m.twin o).sink = m.sink := rfl
  unfold Goes Exec.flush
  rw [hsink]
  cases m.sink.flushFault with
  | none => exact ⟨_, o, rfl, h, .refl _, rfl⟩
  | some message => exact ⟨o, rfl, h, .refl _⟩

theorem callHost (h : Alike I m.store o) (provided : HostFunction) (paren : Token)
    (arguments : List Value) :
    Goes I (Exec.callHost provided paren arguments) (Exec.callHost provided paren arguments) m o
      Equally := by
  have hshown : (arguments.map fun value => (value, (m.twin o).store.display value)) =
      arguments.map fun value => (value, m.store.display value) :=
    List.map_congr_left fun value _ => congrArg (Prod.mk value) (h.display value)
  have hclock : (m.twin o).clock (m.twin o).readings = m.clock m.readings := rfl
  unfold Goes Exec.callHost
  rw [hshown, hclock]
  dsimp only
  cases provided.run (m.clock m.readings)
      (arguments.map fun value => (value, m.store.display value)) with
  | ok value => exact ⟨_, o, rfl, h, .refl _, rfl⟩
  | error message => exact ⟨o, rfl, h, .refl _⟩

/-- Reading a variable under its two spellings. -/
theorem readVariable (h : Alike I m.store o) {locals locals' : Locals} {mention mention' : Mention}
    (hmeets : Meets m.store locals locals' mention mention') (hrole : mention.role ≠ .assign) :
    Goes I (Exec.readVariable locals mention.token) (Exec.readVariable locals' mention'.token) m o
      Equally := by
  obtain ⟨hline, hlocation, hspelled⟩ := hmeets
  have hcells : (m.twin o).store.cells = m.store.cells := rfl
  have hglobals : (m.twin o).store.globals = m.store.globals := rfl
  have hraise : mention'.token.lexeme = mention.token.lexeme → Goes I
      (Exec.raise mention.token (.undefinedVariable mention.token.lexeme))
      (Exec.raise mention'.token (.undefinedVariable mention'.token.lexeme)) m o
      (Equally (α := Value)) := by
    intro hequal
    rw [hequal]
    exact raise h hline _
  unfold Goes Exec.readVariable at *
  rw [hlocation, hcells, hglobals]
  cases hfound : locals.get? mention.token.lexeme with
  | none =>
    have hequal : mention'.token.lexeme = mention.token.lexeme := by
      simpa [hfound] using hspelled
    dsimp only
    rw [hequal] at hraise ⊢
    cases m.store.globals.get? mention.token.lexeme with
    | some value => exact ⟨value, o, rfl, h, .refl _, rfl⟩
    | none => exact hraise rfl
  | some location =>
    dsimp only
    cases hcell : m.store.cells[location]?.join with
    | some value => exact ⟨value, o, rfl, h, .refl _, rfl⟩
    | none =>
      refine hraise (hspelled.resolve_right ?_)
      rintro ⟨location', hlocation', hassign | ⟨value, hvalue⟩⟩
      · exact hrole hassign
      · rw [hfound, Option.some_inj] at hlocation'
        subst hlocation'
        simp [hvalue] at hcell

/-- Changing a variable under its two spellings. -/
theorem writeVariable (h : Alike I m.store o) {locals locals' : Locals} {mention mention' : Mention}
    (hmeets : Meets m.store locals locals' mention mention') (value : Value) :
    Goes I (Exec.writeVariable locals mention.token value)
      (Exec.writeVariable locals' mention'.token value) m o Equally := by
  obtain ⟨hline, hlocation, hspelled⟩ := hmeets
  have hglobals : (m.twin o).store.globals = m.store.globals := rfl
  unfold Goes Exec.writeVariable
  rw [hlocation, hglobals]
  cases hfound : locals.get? mention.token.lexeme with
  | some location =>
    have hlasts := m.store.lasts_write location value
    exact ⟨_, o, rfl, h.lasts hlasts rfl rfl, hlasts, rfl⟩
  | none =>
    have hequal : mention'.token.lexeme = mention.token.lexeme := by
      simpa [hfound] using hspelled
    dsimp only
    rw [hequal]
    cases m.store.globals.contains mention.token.lexeme with
    | true => exact ⟨_, o, rfl, h.lasts (.of_cells rfl) rfl rfl, .of_cells rfl, rfl⟩
    | false => exact raise (Q := Equally) h hline _

theorem bindMethod (h : Alike I m.store o) {c c' : Closure} (hmethod : MethodAlike I m.store c c')
    (object : Nat) :
    Goes I (Exec.onStore (·.bindMethod c object)) (Exec.onStore (·.bindMethod c' object)) m o
      fun s a b => FunctionAlike I s a b ∧ a.routine = c.routine := by
  have hlasts := m.store.lasts_push (some (.object object))
  unfold Goes
  rw [Exec.onStore_eq]
  exact ⟨_, o, rfl, h.lasts hlasts rfl rfl, hlasts, hmethod.bound o object, rfl⟩

theorem setField (h : Alike I m.store o) (object : Nat) (name : String) (value : Value) :
    Goes I (Exec.onStore fun s => ((), s.setField object name value))
      (Exec.onStore fun s => ((), s.setField object name value)) m o Equally := by
  have hlasts : m.store.Lasts (m.store.setField object name value) := .of_cells rfl
  exact step rfl (h.lasts hlasts rfl rfl) hlasts rfl

theorem addObject (h : Alike I m.store o) (classId : Nat) :
    Goes I (Exec.onStore (·.addObject classId)) (Exec.onStore (·.addObject classId)) m o
      Equally := by
  have hlasts : m.store.Lasts (m.store.addObject classId).2 := .of_cells rfl
  exact step rfl (h.lasts hlasts rfl rfl) hlasts rfl

theorem addFunction (h : Alike I m.store o) {c c' : Closure}
    (hfunction : FunctionAlike I m.store c c') :
    Goes I (Exec.onStore (·.addFunction c)) (Exec.onStore (·.addFunction c')) m o Equally := by
  refine step ?_ (h.addFunction hfunction) (.of_cells rfl) rfl
  simp only [Store.addFunction, Store.twin, h.functionCount]

theorem addClass (h : Alike I m.store o) {c c' : ClassInfo} (hclass : ClassAlike I m.store c c') :
    Goes I (Exec.onStore (·.addClass c)) (Exec.onStore (·.addClass c')) m o Equally := by
  refine step ?_ (h.addClass hclass) (.of_cells rfl) rfl
  simp only [Store.addClass, Store.twin, h.classCount]

theorem addBoundMethod (h : Alike I m.store o) {c c' : Closure}
    (hmethod : MethodAlike I m.store c c') (object : Nat) :
    Goes I (Exec.onStore (·.addBoundMethod c object)) (Exec.onStore (·.addBoundMethod c' object))
      m o Equally := by
  have hlasts : m.store.Lasts (m.store.bindMethod c object).2 :=
    m.store.lasts_push (some (.object object))
  have hbound := (h.lasts hlasts rfl rfl).addFunction (hmethod.bound o object)
  refine step ?_ hbound (hlasts.trans (.of_cells rfl)) rfl
  change ((m.store.bindMethod c object).2.twin o).addFunction _ = _
  simp only [Store.addFunction, Store.twin, h.functionCount]
  rfl

/-- The value of a property. -/
theorem readProperty (h : Alike I m.store o) (object : Nat) (name : Token) :
    Goes I (Exec.readProperty object name) (Exec.readProperty object name) m o Equally := by
  have hmethod := h.methodOf object name.lexeme
  have hfield : (m.twin o).store.field? object name.lexeme =
      m.store.field? object name.lexeme := rfl
  have htwin : (m.twin o).store.methodOf? object name.lexeme =
      (m.store.twin o).methodOf? object name.lexeme := rfl
  unfold Goes Exec.readProperty
  rw [hfield, htwin]
  cases m.store.field? object name.lexeme with
  | some value => exact ⟨value, o, rfl, h, .refl _, rfl⟩
  | none =>
    generalize m.store.methodOf? object name.lexeme = method,
      (m.store.twin o).methodOf? object name.lexeme = method' at hmethod
    cases hmethod with
    | none => exact raise (Q := Equally) h rfl _
    | some hmethod => exact addBoundMethod h hmethod object

/-- Making room for a variable under its two spellings. -/
theorem declare (h : Alike I m.store o) {Γ : Spellings} {env env' : Env}
    (henv : EnvAlike m.store Γ env env') {name name' : String} (hnames : Declarable Γ name name') :
    Goes I (Exec.declare env name) (Exec.declare env' name') m o
      fun s a b => Begun s name name' Γ a b := by
  cases henv with
  | top => exact pure h (.top hnames)
  | @inside pairs Γ locals locals' hlocals =>
    have hlasts := m.store.lasts_push none
    have hlt : m.store.cells.size < (m.store.cells.push none).size := by simp
    exact ⟨_, o, rfl, h.lasts hlasts rfl rfl, hlasts, .inside (hlocals.lasts hlasts) hlt⟩

/-- Giving a variable its value under its two spellings. -/
theorem define (h : Alike I m.store o) {Γ : Spellings} {env env' : Env} {name name' : String}
    (hbegun : Begun m.store name name' Γ env env') (value : Value) :
    Goes I (Exec.define env name value) (Exec.define env' name' value) m o
      fun s _ _ => EnvAlike s (declareBoth Γ name name') env env' := by
  cases hbegun with
  | top hequal =>
    subst hequal
    have hlasts : m.store.Lasts (m.store.defineGlobal name value) := .of_cells rfl
    exact ⟨(), o, rfl, h.lasts hlasts rfl rfl, hlasts, .top⟩
  | @inside pairs Γ locals locals' location hlocals hlt =>
    have hlasts := m.store.lasts_write location value
    have hvalued := Store.valued_write hlt value
    have hinside : LocalsAlike (m.store.write location value) (((name, name') :: pairs) :: Γ)
        (locals.insert name location) (locals'.insert name' location) :=
      (hlocals.lasts hlasts).insert hvalued
    have hget : (locals.insert name location).get? name = some location := by
      rw [NameMap.get?_insert, if_pos rfl]
    have hget' : (locals'.insert name' location).get? name' = some location := by
      rw [NameMap.get?_insert, if_pos rfl]
    unfold Exec.define
    dsimp only
    rw [hget, hget']
    exact ⟨(), o, rfl, h.lasts hlasts rfl rfl, hlasts, .inside hinside⟩

/-- Binding parameters under their two spellings. -/
theorem bindParameters {Γ : Spellings} {pairs final : List (String × String)} {ps ps' : List Token}
    (hparameters : RespelledParameters pairs ps ps' final) {arguments : List Value}
    (hlength : arguments.length = ps.length) {m : Machine} {o : Others} (h : Alike I m.store o)
    {locals locals' : Locals} (hlocals : LocalsAlike m.store (pairs :: Γ) locals locals') :
    Goes I (Exec.bindParameters locals ((ps.map Token.lexeme).zip arguments))
      (Exec.bindParameters locals' ((ps'.map Token.lexeme).zip arguments)) m o
      fun s a b => LocalsAlike s (final :: Γ) a b := by
  induction hparameters generalizing arguments m o locals locals' with
  | nil => exact pure h hlocals
  | @cons pairs t t' rest rest' final _ _ ih =>
    cases arguments with
    | nil => cases hlength
    | cons value arguments =>
      have hlasts := m.store.lasts_push (some value)
      have hvalued : Store.Valued (m.store.addValue value).2 m.store.cells.size :=
        ⟨value, by simp [Store.addValue]⟩
      have hadded : Goes I (Exec.onStore (·.addValue value)) (Exec.onStore (·.addValue value)) m o
          fun s a b => b = a ∧ s.Valued a :=
        step rfl (h.lasts hlasts rfl rfl) hlasts ⟨rfl, hvalued⟩
      refine hadded.bind fun m₁ o₁ location location' halike hlasts₁ hlocation => ?_
      obtain ⟨rfl, hvalued₁⟩ := hlocation
      exact ih (Nat.succ.inj hlength) halike ((hlocals.lasts hlasts₁).insert hvalued₁)

theorem resultOfCall (h : Alike I m.store o) {c c' : Closure}
    (hfunction : FunctionAlike I m.store c c') (flow : Flow) :
    Goes I (Exec.resultOfCall c flow) (Exec.resultOfCall c' flow) m o Equally := by
  have hcells : (m.twin o).store.cells = m.store.cells := rfl
  unfold Goes Exec.resultOfCall
  rw [hfunction.isInitializer, hcells]
  cases hinitializer : c.isInitializer with
  | true =>
    rw [hfunction.self hinitializer]
    exact ⟨_, o, rfl, h, .refl _, rfl⟩
  | false =>
    cases flow with
    | normal => exact ⟨_, o, rfl, h, .refl _, rfl⟩
    | returned value => exact ⟨_, o, rfl, h, .refl _, rfl⟩

end Goes

/-- The class that a declaration makes. -/
theorem classAlike {Γ : Spellings} {s : Store} {methods methods' : List Routine} (name : String)
    {locals locals' : Locals} (hlocals : LocalsAlike s Γ locals locals')
    (hmethods : RespelledMethods I ([(selfName, selfName)] :: Γ) methods methods') :
    ClassAlike I s
      ⟨name, NameMap.empty.insertAll (methods.map fun method =>
        (method.name.lexeme, Closure.mk method locals method.isInitializer))⟩
      ⟨name, NameMap.empty.insertAll (methods'.map fun method =>
        (method.name.lexeme, Closure.mk method locals' method.isInitializer))⟩ := by
  refine ⟨rfl, fun other => ?_⟩
  suffices hall : ∀ known known' : NameMap Closure,
      Option.Rel (MethodAlike I s) (known.get? other) (known'.get? other) →
      Option.Rel (MethodAlike I s)
        ((known.insertAll (methods.map fun method =>
          (method.name.lexeme, Closure.mk method locals method.isInitializer))).get? other)
        ((known'.insertAll (methods'.map fun method =>
          (method.name.lexeme, Closure.mk method locals' method.isInitializer))).get? other) from
    hall .empty .empty .none
  induction methods generalizing methods' with
  | nil =>
    cases hmethods
    exact fun _ _ h => h
  | cons method rest ih =>
    cases hmethods with
    | @cons _ _ method' _ rest' hmethod hrest =>
      intro known known' h
      have hname := name_respelled hmethod
      have hinit : method'.isInitializer = method.isInitializer := by
        rw [Routine.isInitializer, hname, Routine.isInitializer]
      refine ih hrest _ _ ?_
      dsimp only
      rw [NameMap.get?_insert, NameMap.get?_insert, hname]
      split
      · exact .some ⟨hinit, Γ, hlocals, hmethod⟩
      · exact h

end Steps

/-! ## 4. The evaluator -/

/-- With the given fuel, every function of the evaluator does the same in two spellings. -/
structure Follows (I : Nat → Nat → Prop) (fuel : Nat) : Prop where
  statement : ∀ {Γ Γ' s s' env env' m o}, Respelled I Γ s s' Γ' → EnvAlike m.store Γ env env' →
    Alike I m.store o → Goes I (execute fuel env s) (execute fuel env' s') m o
      fun s a b => b.1 = a.1 ∧ EnvAlike s Γ' a.2 b.2
  statements : ∀ {Γ body body' env env' m o}, RespelledAll I Γ body body' →
    EnvAlike m.store Γ env env' → Alike I m.store o →
    Goes I (executeAll fuel env body) (executeAll fuel env' body') m o Equally
  loop : ∀ {Γ condition condition' body body' env env' m o},
    RespelledExpr (SameVariable I Γ) condition condition' → Respelled I Γ body body' Γ →
    EnvAlike m.store Γ env env' → Alike I m.store o →
    Goes I (executeLoop fuel env condition body) (executeLoop fuel env' condition' body') m o
      Equally
  expression : ∀ {M e e' locals locals' m o}, RespelledExpr M e e' →
    (∀ mention mention', M mention mention' → Meets m.store locals locals' mention mention') →
    Alike I m.store o → Goes I (evaluate fuel locals e) (evaluate fuel locals' e') m o Equally
  option : ∀ {M e e' locals locals' m o}, Option.Rel (RespelledExpr M) e e' →
    (∀ mention mention', M mention mention' → Meets m.store locals locals' mention mention') →
    Alike I m.store o →
    Goes I (evaluateOption fuel locals e) (evaluateOption fuel locals' e') m o Equally
  expressions : ∀ {M es es' locals locals' m o}, RespelledExprs M es es' →
    (∀ mention mention', M mention mention' → Meets m.store locals locals' mention mention') →
    Alike I m.store o →
    Goes I (evaluateAll fuel locals es) (evaluateAll fuel locals' es') m o Equally
  call : ∀ {value paren arguments m o}, Alike I m.store o →
    Goes I (call fuel value paren arguments) (call fuel value paren arguments) m o Equally
  enter : ∀ {c c' paren arguments m o}, CalleeAlike I m.store c c' → arguments.length = c.arity →
    Alike I m.store o →
    Goes I (enter fuel c paren arguments) (enter fuel c' paren arguments) m o Equally
  invoke : ∀ {c c' arguments m o}, FunctionAlike I m.store c c' →
    arguments.length = c.routine.parameters.length → Alike I m.store o →
    Goes I (invoke fuel c arguments) (invoke fuel c' arguments) m o Equally

namespace Follows

variable {I : Nat → Nat → Prop} {fuel : Nat} {m : Machine} {o : Others}

/-- What mentions lead to lasts. -/
theorem meets_lasts {M : Mention → Mention → Prop} {s s' : Store} {locals locals' : Locals}
    (h : ∀ mention mention', M mention mention' → Meets s locals locals' mention mention')
    (hlasts : s.Lasts s') :
    ∀ mention mention', M mention mention' → Meets s' locals locals' mention mention' :=
  fun mention mention' hM => (h mention mention' hM).lasts hlasts

theorem expression_succ (ih : Follows I fuel) {M : Mention → Mention → Prop} {e e' : Expr}
    {locals locals' : Locals} (he : RespelledExpr M e e')
    (hM : ∀ mention mention', M mention mention' → Meets m.store locals locals' mention mention')
    (h : Alike I m.store o) :
    Goes I (evaluate (fuel + 1) locals e) (evaluate (fuel + 1) locals' e') m o Equally := by
  cases he with
  | literal => exact .pure h rfl
  | group hinner => exact ih.expression hinner hM h
  | unary hoperand =>
    rw [evaluate, evaluate]
    refine (ih.expression hoperand hM h).andThen fun m₁ o₁ value h₁ hlasts => ?_
    exact .ofExcept h₁ _ _
  | binary hleft hright =>
    rw [evaluate, evaluate]
    refine (ih.expression hleft hM h).andThen fun m₁ o₁ left h₁ hlasts => ?_
    refine (ih.expression hright (meets_lasts hM hlasts) h₁).andThen fun m₂ o₂ right h₂ _ => ?_
    exact .ofExcept h₂ _ _
  | logical hleft hright =>
    rw [evaluate, evaluate]
    refine (ih.expression hleft hM h).andThen fun m₁ o₁ left h₁ hlasts => ?_
    split
    · exact .pure h₁ rfl
    · exact ih.expression hright (meets_lasts hM hlasts) h₁
  | read hm =>
    rw [evaluate, evaluate]
    exact .readVariable h (hM _ _ hm) (by simp)
  | assign hm hvalue =>
    rw [evaluate, evaluate]
    refine (ih.expression hvalue hM h).andThen fun m₁ o₁ value h₁ hlasts => ?_
    refine (Goes.writeVariable h₁ (meets_lasts hM hlasts _ _ hm) value).andThen
      fun m₂ o₂ _ h₂ _ => ?_
    exact .pure h₂ rfl
  | call hcallee harguments =>
    rw [evaluate, evaluate]
    refine (ih.expression hcallee hM h).andThen fun m₁ o₁ callee h₁ hlasts => ?_
    refine (ih.expressions harguments (meets_lasts hM hlasts) h₁).andThen
      fun m₂ o₂ values h₂ _ => ?_
    exact ih.call h₂
  | property hobject =>
    rw [evaluate, evaluate]
    refine (ih.expression hobject hM h).andThen fun m₁ o₁ object h₁ hlasts => ?_
    cases object with
    | object target => exact .readProperty h₁ target _
    | nil | bool | number | text | host | function | classRef => exact .raise h₁ rfl _
  | setProperty hobject hvalue =>
    rw [evaluate, evaluate]
    refine (ih.expression hobject hM h).andThen fun m₁ o₁ object h₁ hlasts => ?_
    cases object with
    | object target =>
      refine (ih.expression hvalue (meets_lasts hM hlasts) h₁).andThen fun m₂ o₂ value h₂ _ => ?_
      refine (Goes.setField h₂ target _ value).andThen fun m₃ o₃ _ h₃ _ => ?_
      exact .pure h₃ rfl
    | nil | bool | number | text | host | function | classRef => exact .raise h₁ rfl _
  | self hm =>
    rw [evaluate, evaluate]
    exact .readVariable h (hM _ _ hm) (by simp)

theorem option_succ (ih : Follows I fuel) {M : Mention → Mention → Prop} {e e' : Option Expr}
    {locals locals' : Locals} (he : Option.Rel (RespelledExpr M) e e')
    (hM : ∀ mention mention', M mention mention' → Meets m.store locals locals' mention mention')
    (h : Alike I m.store o) :
    Goes I (evaluateOption (fuel + 1) locals e) (evaluateOption (fuel + 1) locals' e') m o
      Equally := by
  cases he with
  | none => exact .pure h rfl
  | some he => exact ih.expression he hM h

theorem expressions_succ (ih : Follows I fuel) {M : Mention → Mention → Prop} {es es' : List Expr}
    {locals locals' : Locals} (hes : RespelledExprs M es es')
    (hM : ∀ mention mention', M mention mention' → Meets m.store locals locals' mention mention')
    (h : Alike I m.store o) :
    Goes I (evaluateAll (fuel + 1) locals es) (evaluateAll (fuel + 1) locals' es') m o Equally := by
  cases hes with
  | nil => exact .pure h rfl
  | cons he hrest =>
    rw [evaluateAll, evaluateAll]
    refine (ih.expression he hM h).andThen fun m₁ o₁ value h₁ hlasts => ?_
    refine (ih.expressions hrest (meets_lasts hM hlasts) h₁).andThen fun m₂ o₂ values h₂ _ => ?_
    exact .pure h₂ rfl

theorem call_succ (ih : Follows I fuel) {value : Value} {paren : Token} {arguments : List Value}
    (h : Alike I m.store o) :
    Goes I (Reference.call (fuel + 1) value paren arguments)
      (Reference.call (fuel + 1) value paren arguments) m o Equally := by
  have hcallee := h.callee value
  have htwin : (m.twin o).store.callee? value = (m.store.twin o).callee? value := rfl
  have hdepth : (m.twin o).depth = m.depth := rfl
  rw [Reference.call]
  refine Goes.get ?_
  rw [htwin]
  generalize m.store.callee? value = c, (m.store.twin o).callee? value = c' at hcallee
  cases hcallee with
  | none => exact .raise h rfl _
  | @some c c' hcallee =>
    dsimp only
    rw [hcallee.arity]
    split
    · exact .raise h rfl _
    · rename_i harity
      refine Goes.get ?_
      rw [hdepth]
      split
      · exact .raise h rfl _
      · exact Goes.asCall (ih.enter hcallee (Decidable.not_not.mp harity) h)

theorem enter_succ (ih : Follows I fuel) {c c' : Store.Callee} {paren : Token}
    {arguments : List Value} (hcallee : CalleeAlike I m.store c c')
    (harity : arguments.length = c.arity) (h : Alike I m.store o) :
    Goes I (Reference.enter (fuel + 1) c paren arguments)
      (Reference.enter (fuel + 1) c' paren arguments) m o Equally := by
  cases hcallee with
  | host => exact .callHost h _ paren arguments
  | function hfunction => exact ih.invoke hfunction harity h
  | @classRef classId c c' hclass =>
    rw [Reference.enter, Reference.enter]
    refine (Goes.addObject h classId).andThen fun m₁ o₁ object h₁ hlasts => ?_
    have hmethod := (hclass.lasts hlasts).method initializerName
    unfold Store.Callee.arity at harity
    dsimp only at harity
    generalize c.methods.get? initializerName = method,
      c'.methods.get? initializerName = method' at hmethod harity
    cases hmethod with
    | none => exact .pure h₁ rfl
    | some hmethod =>
      refine (Goes.bindMethod h₁ hmethod object).bind fun m₂ o₂ bound bound' h₂ _ hbound => ?_
      obtain ⟨hbound, hroutine⟩ := hbound
      refine (ih.invoke hbound (by rw [hroutine]; exact harity) h₂).andThen fun m₃ o₃ _ h₃ _ => ?_
      exact .pure h₃ rfl

theorem invoke_succ (ih : Follows I fuel) {c c' : Closure} {arguments : List Value}
    (hfunction : FunctionAlike I m.store c c')
    (harity : arguments.length = c.routine.parameters.length) (h : Alike I m.store o) :
    Goes I (Reference.invoke (fuel + 1) c arguments) (Reference.invoke (fuel + 1) c' arguments) m o
      Equally := by
  obtain ⟨Γ, hlocals, hroutine⟩ := hfunction.respelled
  obtain ⟨routine, locals, isInitializer⟩ := c
  obtain ⟨routine', locals', isInitializer'⟩ := c'
  cases hroutine with
  | mk hparameters hbody =>
    rw [Reference.invoke, Reference.invoke]
    have hinside : LocalsAlike m.store ([] :: Γ) locals locals' := hlocals
    refine (Goes.bindParameters hparameters harity h hinside).bind ?_
    intro m₁ o₁ inner inner' h₁ hlasts hinner
    refine (ih.statements hbody (.inside hinner) h₁).andThen fun m₂ o₂ flow h₂ hlasts₂ => ?_
    exact .resultOfCall h₂ (hfunction.lasts (hlasts.trans hlasts₂)) flow

theorem statements_succ (ih : Follows I fuel) {Γ : Spellings} {body body' : List Stmt}
    {env env' : Env} (hbody : RespelledAll I Γ body body') (henv : EnvAlike m.store Γ env env')
    (h : Alike I m.store o) :
    Goes I (executeAll (fuel + 1) env body) (executeAll (fuel + 1) env' body') m o Equally := by
  cases hbody with
  | nil => exact .pure h rfl
  | cons hs hrest =>
    rw [executeAll, executeAll]
    refine (ih.statement hs henv h).bind ?_
    rintro m₁ o₁ ⟨flow, env₁⟩ ⟨flow', env₁'⟩ h₁ - ⟨hflow, henv₁⟩
    obtain rfl : flow' = flow := hflow
    cases flow' with
    | normal => exact ih.statements hrest henv₁ h₁
    | returned value => exact .pure h₁ rfl

theorem loop_succ (ih : Follows I fuel) {Γ : Spellings} {condition condition' : Expr}
    {body body' : Stmt} {env env' : Env}
    (hcondition : RespelledExpr (SameVariable I Γ) condition condition')
    (hbody : Respelled I Γ body body' Γ) (henv : EnvAlike m.store Γ env env')
    (h : Alike I m.store o) :
    Goes I (executeLoop (fuel + 1) env condition body)
      (executeLoop (fuel + 1) env' condition' body') m o Equally := by
  rw [executeLoop, executeLoop]
  refine (ih.expression hcondition (fun _ _ => henv.inForce.meets) h).andThen
    fun m₁ o₁ value h₁ hlasts => ?_
  split
  · refine (ih.statement hbody (henv.lasts hlasts) h₁).bind ?_
    rintro m₂ o₂ ⟨flow, env₂⟩ ⟨flow', env₂'⟩ h₂ hlasts₂ ⟨hflow, -⟩
    obtain rfl : flow' = flow := hflow
    cases flow' with
    | normal => exact ih.loop hcondition hbody (henv.lasts (hlasts.trans hlasts₂)) h₂
    | returned value => exact .pure h₂ rfl
  · exact .pure h₁ rfl

theorem statement_succ (ih : Follows I fuel) {Γ Γ' : Spellings} {s s' : Stmt} {env env' : Env}
    (hs : Respelled I Γ s s' Γ') (henv : EnvAlike m.store Γ env env') (h : Alike I m.store o) :
    Goes I (execute (fuel + 1) env s) (execute (fuel + 1) env' s') m o
      fun s a b => b.1 = a.1 ∧ EnvAlike s Γ' a.2 b.2 := by
  cases hs with
  | expression hvalue =>
    rw [execute, execute]
    refine (ih.expression hvalue (fun _ _ => henv.inForce.meets) h).andThen
      fun m₁ o₁ value h₁ hlasts => ?_
    exact .pure h₁ ⟨rfl, henv.lasts hlasts⟩
  | print hvalue =>
    rw [execute, execute]
    refine (ih.expression hvalue (fun _ _ => henv.inForce.meets) h).andThen
      fun m₁ o₁ value h₁ hlasts => ?_
    refine (Goes.printLine h₁ value).andThen fun m₂ o₂ _ h₂ hlasts₂ => ?_
    exact .pure h₂ ⟨rfl, henv.lasts (hlasts.trans hlasts₂)⟩
  | var hnames hinitializer =>
    rw [execute, execute]
    refine (Goes.declare h henv hnames).bind fun m₁ o₁ inner inner' h₁ _ hbegun => ?_
    refine (ih.option hinitializer (fun _ _ => hbegun.meets) h₁).andThen
      fun m₂ o₂ value h₂ hlasts₂ => ?_
    refine (Goes.define h₂ (hbegun.lasts hlasts₂) value).bind fun m₃ o₃ _ _ h₃ _ henv₃ => ?_
    exact .pure h₃ ⟨rfl, henv₃⟩
  | block hbody =>
    rw [execute, execute]
    refine (ih.statements hbody henv.block h).andThen fun m₁ o₁ flow h₁ hlasts => ?_
    exact .pure h₁ ⟨rfl, henv.lasts hlasts⟩
  | ifThen hcondition _ hthen =>
    rw [execute, execute]
    refine (ih.expression hcondition (fun _ _ => henv.inForce.meets) h).andThen
      fun m₁ o₁ value h₁ hlasts => ?_
    split
    · exact ih.statement hthen (henv.lasts hlasts) h₁
    · exact .pure h₁ ⟨rfl, henv.lasts hlasts⟩
  | ifElse hcondition _ hthen _ helse =>
    rw [execute, execute]
    refine (ih.expression hcondition (fun _ _ => henv.inForce.meets) h).andThen
      fun m₁ o₁ value h₁ hlasts => ?_
    split
    · exact ih.statement hthen (henv.lasts hlasts) h₁
    · exact ih.statement helse (henv.lasts hlasts) h₁
  | loop hcondition _ hbody =>
    rw [execute, execute]
    refine (ih.loop hcondition hbody henv h).andThen fun m₁ o₁ flow h₁ hlasts => ?_
    exact .pure h₁ ⟨rfl, henv.lasts hlasts⟩
  | @function _ routine routine' hname hroutine =>
    rw [execute, execute, name_respelled hroutine]
    refine (Goes.declare h henv hname).bind fun m₁ o₁ inner inner' h₁ _ hbegun => ?_
    have hfunction : FunctionAlike I m₁.store ⟨routine, inner.locals, false⟩
        ⟨routine', inner'.locals, false⟩ := ⟨rfl, ⟨_, hbegun.captured, hroutine⟩, by simp⟩
    refine (Goes.addFunction h₁ hfunction).andThen fun m₂ o₂ value h₂ hlasts₂ => ?_
    refine (Goes.define h₂ (hbegun.lasts hlasts₂) value).bind fun m₃ o₃ _ _ h₃ _ henv₃ => ?_
    exact .pure h₃ ⟨rfl, henv₃⟩
  | ret hvalue =>
    rw [execute, execute]
    refine (ih.option hvalue (fun _ _ => henv.inForce.meets) h).andThen
      fun m₁ o₁ value h₁ hlasts => ?_
    exact .pure h₁ ⟨rfl, henv.lasts hlasts⟩
  | classDecl hname hmethods =>
    rw [execute, execute]
    refine (Goes.declare h henv hname).bind fun m₁ o₁ inner inner' h₁ _ hbegun => ?_
    refine (Goes.define h₁ hbegun .nil).bind fun m₂ o₂ _ _ h₂ hlasts₂ _ => ?_
    have hbegun₂ := hbegun.lasts hlasts₂
    refine (Goes.addClass h₂ (classAlike _ hbegun₂.captured hmethods)).andThen
      fun m₃ o₃ value h₃ hlasts₃ => ?_
    refine (Goes.define h₃ (hbegun₂.lasts hlasts₃) value).bind fun m₄ o₄ _ _ h₄ _ henv₄ => ?_
    exact .pure h₄ ⟨rfl, henv₄⟩

end Follows

/-- Every function of the evaluator does the same in two spellings. -/
theorem follows (I : Nat → Nat → Prop) (fuel : Nat) : Follows I fuel := by
  induction fuel with
  | zero =>
    exact ⟨fun _ _ h => .throw h _, fun _ _ h => .throw h _, fun _ _ _ h => .throw h _,
      fun _ _ h => .throw h _, fun _ _ h => .throw h _, fun _ _ h => .throw h _,
      fun h => .throw h _, fun _ _ h => .throw h _, fun _ _ h => .throw h _⟩
  | succ fuel ih =>
    exact ⟨ih.statement_succ, ih.statements_succ, ih.loop_succ, ih.expression_succ, ih.option_succ,
      ih.expressions_succ, ih.call_succ, ih.enter_succ, ih.invoke_succ⟩

/-! ## 5. Scripts -/

section Scripts

variable {I : Nat → Nat → Prop} {m : Machine} {o : Others} {statements statements' : List Stmt}

theorem goes_executeScript (fuel : Nat) (hstatements : RespelledAll I [] statements statements')
    (h : Alike I m.store o) :
    Goes I (executeScript fuel statements) (executeScript fuel statements') m o Equally := by
  induction statements generalizing statements' m o with
  | nil =>
    cases hstatements
    exact .pure h rfl
  | cons s rest ih =>
    cases hstatements with
    | @cons _ Γ' _ s' _ rest' hs hrest =>
      obtain rfl : Γ' = [] := hs.tail.2.mpr rfl
      rw [executeScript, executeScript]
      refine ((follows I fuel).statement hs .top h).bind fun m₁ o₁ _ _ h₁ _ _ => ?_
      exact ih hrest h₁

/-- What a comparison says about how two runs end. -/
theorem Goes.ending {x y : Exec Unit} (h : Goes I x y m o Equally) :
    halted? (y (m.twin o)) = halted? (x m) ∧ ∃ o₁,
      finalState (y (m.twin o)) = (finalState (x m)).twin o₁ ∧
        Alike I (finalState (x m)).store o₁ := by
  unfold Goes at h
  cases hx : x m with
  | ok _ m₁ =>
    rw [hx] at h
    obtain ⟨_, o₁, hy, halike, -, -⟩ := h
    rw [hy]
    exact ⟨rfl, o₁, rfl, halike⟩
  | error halt m₁ =>
    rw [hx] at h
    obtain ⟨o₁, hy, halike, -⟩ := h
    rw [hy]
    exact ⟨rfl, o₁, rfl, halike⟩

/-- What is left to do after the statements of a script, by how they ended: flushing the output,
unless they ran out of fuel. -/
def finish : Option Halt → Exec Unit
  | none => Exec.flush
  | some (.fault fault) => Exec.flush >>= fun _ => throw (.fault fault)
  | some .outOfFuel => throw .outOfFuel

theorem interpret_eq_finish (fuel : Nat) (statements : List Stmt) (m : Machine) :
    interpret fuel statements m = finish (halted? (executeScript fuel statements m))
      (finalState (executeScript fuel statements m)) := by
  unfold interpret
  cases executeScript fuel statements m with
  | ok _ m₁ => rfl
  | error halt m₁ =>
    cases halt with
    | outOfFuel => rfl
    | fault fault =>
      change _ = EStateM.bind Exec.flush _ m₁
      unfold EStateM.bind
      dsimp only [finalState]
      cases Exec.flush m₁ <;> rfl

theorem goes_finish (h : Alike I m.store o) (halt : Option Halt) :
    Goes I (finish halt) (finish halt) m o Equally := by
  rcases halt with _ | fault | _
  · exact .flush h
  · exact (Goes.flush h).andThen fun _ _ _ h₁ _ => .throw h₁ _
  · exact .throw h _

/-- The same script in two spellings ends in the same way, on a machine and on its twin. -/
theorem interpret_respelled (fuel : Nat) (hstatements : RespelledAll I [] statements statements')
    (h : Alike I m.store o) :
    halted? (interpret fuel statements' (m.twin o)) = halted? (interpret fuel statements m) ∧
      ∃ o₁, finalState (interpret fuel statements' (m.twin o)) =
          (finalState (interpret fuel statements m)).twin o₁ ∧
        Alike I (finalState (interpret fuel statements m)).store o₁ := by
  obtain ⟨hhalted, o₁, hfinal, halike⟩ := (goes_executeScript fuel hstatements h).ending
  rw [interpret_eq_finish, interpret_eq_finish, hhalted, hfinal]
  exact (goes_finish halike _).ending

/-! ## 6. The same run -/

/-- The functions and classes of a run itself. -/
def Store.own (s : Store) : Others := ⟨s.functions, s.classes⟩

theorem Machine.twin_own (m : Machine) : m.twin m.store.own = m := rfl

/-- Outside every scope a name means itself. -/
theorem localsAlike_self (s : Store) (locals : Locals) : LocalsAlike s [] locals locals := by
  intro name name' hlinked
  obtain rfl : name = name' := hlinked
  exact ⟨rfl, .inl rfl⟩

/-- What follows for the second of two related options. -/
theorem rel_second {α β : Type} {R : α → β → Prop} {R' : β → β → Prop} {a : Option α}
    {b : Option β} (h : Option.Rel R a b) (himp : ∀ a b, R a b → R' b b) : Option.Rel R' b b := by
  cases h with
  | none => exact .none
  | some h => exact .some (himp _ _ h)

/-- Where closures are in order, they are the same up to spelling as themselves. -/
theorem Agrees.alike_self {hops : HopTable} {bound : Nat} {c : Config}
    (h : Agrees (Binding.Addressed hops bound) c) (hI : ∀ id, I id id) :
    Alike I c.reference.store c.reference.store.own := by
  have hspelt : ∀ S, Binding.Spelt "" "" "" S [] := fun S => .top (by decide) (by decide) S
  refine ⟨rfl, fun id => rel_second (h.heap.function id) ?_, rfl,
    fun id => rel_second (h.heap.classInfo id) ?_⟩
  · rintro _ _ ⟨hroutine, -, S, -, hplaced, -⟩
    refine ⟨rfl, ⟨[], localsAlike_self _ _, ?_⟩, fun _ => rfl⟩
    rw [hroutine]
    exact hplaced.respelled_self hI (hspelt _) fun _ _ _ => rfl
  · intro _ _ hclass
    refine ⟨rfl, fun name => rel_second (hclass.2 name) ?_⟩
    rintro _ _ ⟨hroutine, -, S, -, hplaced, -⟩
    refine ⟨rfl, [], localsAlike_self _ _, ?_⟩
    rw [hroutine]
    exact hplaced.respelled_self hI (hspelt _).inClass fun _ _ _ => rfl

end Scripts

end ScriptLang.Reference
