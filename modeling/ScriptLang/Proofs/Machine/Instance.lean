/-
ScriptLang.Proofs.Machine.Instance — on whose behalf code runs.

A method is bound to an object when it is accessed, or when a class is called
and has an initializer. It then gets a frame of its own that holds the object.
A frame inside it, for the body of the method, for a block or for the body of a
function that was declared there, acts for this object (`ActsFor`). All of this
is said by the events of runs alone, without looking at a store.

The discipline `forInstances` keeps frames and scopes together: code among
scopes that hold the instance `k` scopes away is run only in frames that are
`k` links inside the frame of a bound method, and its keywords `this` belong to
that method. And a store in which events took place remembers them
(`Remembers`): at the end of the `k` links stands the object, and it is of a
class whose declaration has the method. So a frame acts for one object at most.
-/
import ScriptLang.Proofs.Binding.Instance
import ScriptLang.Proofs.Machine.Discipline

namespace ScriptLang

open Binding (Scope Placed PlacedRoutine Tidy TidyRoutine Written thisScope instanceDepth?
  instanceDepth?_declared instanceDepth?_parameters)
open Store (Evolves Granted)

/-! ## 1. Acting for an object -/

/-- `BindsMethod fuel task m frame object method`: doing the task, the evaluator binds the method to
the object, in a new frame. -/
inductive BindsMethod : Nat → Task → Machine → Nat → Nat → Closure → Prop where
  | accessed {fuel id e name m object method m'} : Accesses fuel m e name object method m' →
      BindsMethod (fuel + 1) (.evaluate (.property id e name)) m m'.store.frames.size object method
  | constructed {fuel classId info paren arguments m method} :
      info.methods.get? initializerName = some method →
      BindsMethod (fuel + 1) (.enter (.classRef classId info) paren arguments) m
        m.store.frames.size m.store.objects.size method

/-- `OpensFrame fuel task m frame outer`: doing the task, the evaluator makes a new frame inside the
outer one. -/
inductive OpensFrame : Nat → Task → Machine → Nat → Nat → Prop where
  | block {fuel body m} :
      OpensFrame (fuel + 1) (.execute (.block body)) m m.store.frames.size m.frame
  | body {fuel closure arguments m} :
      OpensFrame (fuel + 1) (.invoke closure arguments) m m.store.frames.size closure.frame

/-- `ActsFor H k frame object method`: the frame is `k` links inside the frame in which the method
was bound to the object, and no other method was bound on the way. -/
inductive ActsFor (H : Events) : Nat → Nat → Nat → Routine → Prop where
  | bound {fuel task m frame object method} : H fuel task m →
      BindsMethod fuel task m frame object method → ActsFor H 0 frame object method.routine
  | inside {fuel task m frame outer k object method} : H fuel task m →
      OpensFrame fuel task m frame outer → ActsFor H k outer object method →
      ActsFor H (k + 1) frame object method

/-- The class with a number was made by a declaration that has a method. -/
def Declares (H : Events) (classId : Nat) (method : Routine) : Prop :=
  ∃ fuel name methods m, H (fuel + 1) (.execute (.classDecl name methods)) m ∧
    m.store.classes.size = classId ∧ method ∈ methods

section Events

variable {H H' : Events}

theorem ActsFor.mono {k frame object : Nat} {method : Routine}
    (h : ActsFor H k frame object method) (hsub : ∀ {fuel task m}, H fuel task m → H' fuel task m) :
    ActsFor H' k frame object method := by
  induction h with
  | bound hevent hbinds => exact .bound (hsub hevent) hbinds
  | inside hevent hopens _ ih => exact .inside (hsub hevent) hopens ih

theorem Declares.mono {classId : Nat} {method : Routine} (h : Declares H classId method)
    (hsub : ∀ {fuel task m}, H fuel task m → H' fuel task m) : Declares H' classId method := by
  obtain ⟨fuel, name, methods, m, hevent, hrest⟩ := h
  exact ⟨fuel, name, methods, m, hsub hevent, hrest⟩

end Events

/-! ## 2. Code and frames -/

/-- The frame acts for an object, as many links away as the scopes have it, and the keywords `this`
belong to the method that is bound to it. -/
def Serves (H : Events) (S : List Scope) (frame : Nat) (selves : List Nat) : Prop :=
  ∀ k, instanceDepth? S = some k →
    ∃ object method, ActsFor H k frame object method ∧ ∀ id ∈ selves, id ∈ method.selves

namespace Serves

variable {H : Events} {S S' : List Scope} {frame outer fuel : Nat} {selves selves' : List Nat}
variable {task : Task} {m : Machine}

theorem mono {H' : Events} (h : Serves H S frame selves)
    (hsub : ∀ {fuel task m}, H fuel task m → H' fuel task m) : Serves H' S frame selves := by
  intro k hk
  obtain ⟨object, method, hacts, hselves⟩ := h k hk
  exact ⟨object, method, hacts.mono hsub, hselves⟩

theorem within (h : Serves H S frame selves) (hdepth : instanceDepth? S' = instanceDepth? S)
    (hsub : ∀ id ∈ selves', id ∈ selves) : Serves H S' frame selves' := by
  intro k hk
  obtain ⟨object, method, hacts, hselves⟩ := h k (hdepth ▸ hk)
  exact ⟨object, method, hacts, fun id hid => hselves id (hsub id hid)⟩

/-- A new frame inside a frame goes with a new scope. -/
theorem opened (h : Serves H S outer selves) (hevent : H fuel task m)
    (hopens : OpensFrame fuel task m frame outer)
    (hdepth : instanceDepth? S' = (instanceDepth? S).map (· + 1))
    (hsub : ∀ id ∈ selves', id ∈ selves) : Serves H S' frame selves' := by
  intro k hk
  rw [hdepth, Option.map_eq_some_iff] at hk
  obtain ⟨k, hk, rfl⟩ := hk
  obtain ⟨object, method, hacts, hselves⟩ := h k hk
  exact ⟨object, method, .inside hevent hopens hacts, fun id hid => hselves id (hsub id hid)⟩

/-- The frame of a bound method goes with the scope of the instance. -/
theorem bound {object : Nat} {method : Closure} (S : List Scope) (hevent : H fuel task m)
    (hbinds : BindsMethod fuel task m frame object method) :
    Serves H (thisScope :: S) frame method.routine.selves := by
  intro k hk
  cases hk
  exact ⟨object, method.routine, .bound hevent hbinds, fun _ hid => hid⟩

end Serves

section Parts

variable {P : List Scope → Mention → Prop} {good : Token → Prop} {S : List Scope}

theorem Expr.mem_mentionsAll {es : List Expr} {e : Expr} (h : e ∈ es) :
    ∀ m ∈ e.mentions, m ∈ Expr.mentionsAll es := by
  intro m hm
  induction es with
  | nil => cases h
  | cons first rest ih =>
    rw [Expr.mentionsAll, List.mem_append]
    rcases List.mem_cons.mp h with rfl | hmem
    · exact .inl hm
    · exact .inr (ih hmem)

/-- An expression mentions what its operands mention. -/
theorem Expr.mentions_operand {e e' : Expr} (h : e' ∈ e.operands) :
    ∀ m ∈ e'.mentions, m ∈ e.mentions := by
  intro m hm
  cases e with
  | literal | read | self => cases h
  | group | unary | property =>
    rw [List.mem_singleton.mp h] at hm
    exact hm
  | assign =>
    rw [List.mem_singleton.mp h] at hm
    exact List.mem_cons_of_mem _ hm
  | binary id left operator right | logical id left operator right =>
    rw [Expr.mentions, List.mem_append]
    rcases List.mem_cons.mp h with rfl | h
    · exact .inl hm
    · exact .inr (List.mem_singleton.mp h ▸ hm)
  | setProperty id object name value =>
    rw [Expr.mentions, List.mem_append]
    rcases List.mem_cons.mp h with rfl | h
    · exact .inl hm
    · exact .inr (List.mem_singleton.mp h ▸ hm)
  | call id callee paren arguments =>
    rw [Expr.mentions, List.mem_append]
    rcases List.mem_cons.mp h with rfl | h
    · exact .inl hm
    · exact .inr (Expr.mem_mentionsAll h m hm)

/-- The expressions of a statement stand among scopes that are as far from the instance, and their
keywords are among those of the statement. -/
theorem Binding.Placed.own {s : Stmt} {e : Expr} (hgood : ∀ t, good t → t.lexeme ≠ selfName)
    (h : Placed P S s) (htidy : Tidy good s) (hmem : e ∈ s.expressions) :
    ∃ S', (∀ m ∈ e.mentions, P S' m) ∧ instanceDepth? S' = instanceDepth? S ∧
      ∀ id ∈ e.selves, id ∈ s.selves := by
  cases h with
  | expression h | print h =>
    cases List.mem_singleton.mp hmem
    exact ⟨S, h, rfl, fun _ hid => hid⟩
  | @var _ name initializer _ h =>
    cases htidy with
    | var hname =>
      obtain rfl := Option.mem_toList.mp hmem
      refine ⟨_, h, instanceDepth?_declared (hgood _ hname) false, fun id hid => ?_⟩
      simpa [Stmt.selves] using hid
  | ret h =>
    obtain rfl := Option.mem_toList.mp hmem
    refine ⟨S, h, rfl, fun id hid => ?_⟩
    simpa [Stmt.selves] using hid
  | ifThen h | ifElse h | loop h =>
    cases List.mem_singleton.mp hmem
    exact ⟨S, h, rfl, fun id hid => by simp [Stmt.selves, hid]⟩
  | block | function | classDecl => cases hmem

/-- The branches of a statement stand among the same scopes. -/
theorem Binding.Placed.branch {s s' : Stmt} (h : Placed P S s) (htidy : Tidy good s)
    (hmem : s' ∈ s.branches) :
    Placed P S s' ∧ Tidy good s' ∧ ∀ id ∈ s'.selves, id ∈ s.selves := by
  cases h with
  | ifThen _ _ hbranch =>
    cases htidy with
    | ifThen _ htidy =>
      cases List.mem_singleton.mp hmem
      exact ⟨hbranch, htidy, fun id hid => by simp [Stmt.selves, hid]⟩
  | ifElse _ _ hthen _ helse =>
    cases htidy with
    | ifElse _ htidyThen _ htidyElse =>
      rcases List.mem_cons.mp hmem with rfl | hmem
      · exact ⟨hthen, htidyThen, fun id hid => by simp [Stmt.selves, hid]⟩
      · cases List.mem_singleton.mp hmem
        exact ⟨helse, htidyElse, fun id hid => by simp [Stmt.selves, hid]⟩
  | loop _ _ hbody =>
    cases htidy with
    | loop _ htidy =>
      cases List.mem_singleton.mp hmem
      exact ⟨hbody, htidy, fun id hid => by simp [Stmt.selves, hid]⟩
  | expression | print | var | block | function | ret | classDecl => cases hmem

end Parts

/-! ## 3. The discipline -/

/-- Code is run in frames that act for the instance that its scopes hold. The names that are written
to are good ones, and methods are those of the declaration of their class. -/
def Discipline.forInstances (good : Token → Prop) (H : Events) (hops : HopTable) (bound : Nat) :
    Discipline where
  name name := name ≠ selfName
  function closure := ∃ S, PlacedRoutine (Written hops bound) S closure.routine ∧
    TidyRoutine good closure.routine ∧ Serves H S closure.frame closure.routine.selves
  method classId name closure := closure.routine.name.lexeme = name ∧
    closure.isInitializer = closure.routine.isInitializer ∧ Declares H classId closure.routine ∧
    TidyRoutine good closure.routine ∧
    ∃ S, PlacedRoutine (Written hops bound) (thisScope :: S) closure.routine
  statement frame s := ∃ S, Placed (Written hops bound) S s ∧ Tidy good s ∧
    Serves H S frame s.selves
  expression frame e := ∃ S, (∀ m ∈ e.mentions, Written hops bound S m) ∧
    Serves H S frame e.selves

section Discipline

variable {good : Token → Prop} {H H' : Events} {hops hops' : HopTable} {bound bound' : Nat}

theorem Discipline.forInstances_lawful (hgood : ∀ t, good t → t.lexeme ≠ selfName) (H : Events)
    (hops : HopTable) (bound : Nat) :
    (Discipline.forInstances good H hops bound).Lawful H where
  operand := by
    rintro frame e e' ⟨S, hwritten, hserves⟩ hmem
    have hsub := Expr.mentions_operand hmem
    exact ⟨S, fun m hm => hwritten m (hsub m hm), hserves.within rfl (Expr.selves_mono hsub)⟩
  own := by
    rintro frame s e ⟨S, hplaced, htidy, hserves⟩ hmem
    obtain ⟨S', hwritten, hdepth, hselves⟩ := hplaced.own hgood htidy hmem
    exact ⟨S', hwritten, hserves.within hdepth hselves⟩
  branch := by
    rintro frame s s' ⟨S, hplaced, htidy, hserves⟩ hmem
    obtain ⟨hbranch, htidy', hselves⟩ := hplaced.branch htidy hmem
    exact ⟨S, hbranch, htidy', hserves.within rfl hselves⟩
  block := by
    rintro fuel body m s hevent ⟨S, hplaced, htidy, hserves⟩ hmem
    cases hplaced with
    | block hbody =>
      cases htidy with
      | block htidy =>
        obtain ⟨S', hplaced, htidy', hdepth⟩ := hbody.mem hgood htidy hmem
        rw [Binding.instanceDepth?_empty] at hdepth
        exact ⟨S', hplaced, htidy', hserves.opened hevent .block hdepth (Stmt.selves_of_mem hmem)⟩
  body := by
    rintro fuel closure arguments m s hevent ⟨S, hplaced, htidy, hserves⟩ hmem
    obtain ⟨-, hparameters, htidyBody⟩ := htidy.parts
    obtain ⟨S', hplaced', htidy', hdepth⟩ := hplaced.body.mem hgood htidyBody hmem
    rw [instanceDepth?_parameters fun t ht => hgood t (hparameters t ht)] at hdepth
    rw [Routine.selves_eq] at hserves
    exact ⟨S', hplaced', htidy', hserves.opened hevent .body hdepth (Stmt.selves_of_mem hmem)⟩
  declared := by
    rintro frame name initializer ⟨S, -, htidy, -⟩
    cases htidy with
    | var hname => exact hgood _ hname
  assigned := by
    rintro frame id name value ⟨S, hwritten, -⟩ heq
    have hassign := hwritten ⟨.assign, id, name⟩ List.mem_cons_self
    exact absurd (hassign.spelled.mp heq) (by simp)
  parameter := by
    rintro closure t ⟨S, -, htidy, -⟩ ht
    exact hgood t (htidy.parts.2.1 t ht)
  function := by
    rintro fuel routine m hevent ⟨S, hplaced, htidy, hserves⟩
    cases hplaced with
    | function _ hplaced =>
      cases htidy with
      | function htidy =>
        have hname := hgood _ htidy.parts.1
        exact ⟨hname, _, hplaced, htidy, hserves.within (instanceDepth?_declared hname true)
          fun _ hid => by rwa [Stmt.selves]⟩
  classDecl := by
    rintro fuel name methods m hevent ⟨S, hplaced, htidy, -⟩
    cases hplaced with
    | classDecl _ hplaced =>
      cases htidy with
      | classDecl hname htidy =>
        refine ⟨hgood _ hname, fun method hmem => ⟨rfl, rfl, ?_, htidy.routine hmem, _,
          hplaced.routine hmem⟩⟩
        exact ⟨fuel, name, methods, m, hevent, rfl, hmem⟩
  accessed := by
    rintro fuel id e name m object method m' entry hevent haccesses - ⟨-, -, -, htidy, S, hplaced⟩
    have hserves := Serves.bound S hevent (.accessed haccesses)
    exact ⟨_, hplaced, htidy, hserves⟩
  constructed := by
    rintro fuel classId info paren arguments m method hevent hget ⟨-, -, -, htidy, S, hplaced⟩
    have hserves := Serves.bound S hevent (.constructed hget)
    exact ⟨_, hplaced, htidy, hserves⟩

/-- More events and new hop counts for new identities take nothing back. -/
theorem Discipline.granted_forInstances_mono {s : Store}
    (h : Granted (Discipline.forInstances good H hops bound).toLicence s)
    (hsub : ∀ {fuel task m}, H fuel task m → H' fuel task m) (hle : bound ≤ bound')
    (hold : ∀ id, id < bound → hops'.get? id = hops.get? id) :
    Granted (Discipline.forInstances good H' hops' bound').toLicence s := by
  refine h.mono ?_ ?_
  · rintro closure ⟨S, hplaced, htidy, hserves⟩
    exact ⟨S, hplaced.mono fun _ _ _ hwritten => hwritten.grow hle hold, htidy, hserves.mono hsub⟩
  · rintro classId name closure ⟨hname, hinit, hdeclares, htidy, S, hplaced⟩
    exact ⟨hname, hinit, hdeclares.mono hsub, htidy, S,
      hplaced.mono fun _ _ _ hwritten => hwritten.grow hle hold⟩

end Discipline

/-! ## 4. What a store remembers -/

/-- A frame holds an object, and the object is of a class whose declaration has a method. -/
structure Store.Holds (H : Events) (s : Store) (frame object : Nat) (method : Routine) : Prop where
  value : s.getHere? frame selfName = some (.object object)
  owner : ∃ entry, s.objects[object]? = some entry ∧ Declares H entry.classId method

/-- A frame holds no object and is inside another frame. -/
structure Store.Nested (s : Store) (frame outer : Nat) : Prop where
  unbound : s.getHere? frame selfName = none
  link : s.enclosing? frame = some outer

/-- A method that is bound after it was found under a name is a function of the store, an
initializer exactly if the name is that of initializers. -/
structure Store.Keeps (s : Store) (m : Machine) (name : Token) (method : Closure) : Prop where
  entry : s.functions[m.store.functions.size]? =
    some { method with frame := m.store.frames.size }
  initializer : method.isInitializer = (name.lexeme == initializerName)

/-- What was made while events took place is in a store: the frames of bound methods, the frames
inside other frames, and the functions that bound methods are as values. -/
structure Store.Remembers (s : Store) (H : Events) : Prop where
  bound : ∀ {fuel task m frame object method}, H fuel task m →
    BindsMethod fuel task m frame object method → s.Holds H frame object method.routine
  opened : ∀ {fuel task m frame outer}, H fuel task m → OpensFrame fuel task m frame outer →
    s.Nested frame outer
  function : ∀ {fuel id e name m object method m'}, H (fuel + 1) (.evaluate (.property id e name)) m →
    Accesses fuel m e name object method m' → s.Keeps m' name method

namespace Store

variable {L : Licence} {H H' : Events} {s s' : Store} {frame outer object : Nat} {method : Routine}

theorem Holds.evolves (h : s.Holds H frame object method) (hname : ¬ L.name selfName)
    (hevolves : Evolves L s s') : s'.Holds H frame object method := by
  have hlt := s.lt_of_getHere? (Option.isSome_of_eq_some h.value)
  obtain ⟨entry, hentry, hdeclares⟩ := h.owner
  obtain ⟨fields, hobject, -⟩ := hevolves.grows.object hentry
  exact ⟨(hevolves.self hname hlt).trans h.value, _, hobject, hdeclares⟩

theorem Holds.mono (h : s.Holds H frame object method)
    (hsub : ∀ {fuel task m}, H fuel task m → H' fuel task m) : s.Holds H' frame object method := by
  obtain ⟨entry, hentry, hdeclares⟩ := h.owner
  exact ⟨h.value, entry, hentry, hdeclares.mono hsub⟩

theorem Nested.evolves (h : s.Nested frame outer) (hname : ¬ L.name selfName)
    (hevolves : Evolves L s s') : s'.Nested frame outer := by
  have hlt := s.lt_of_enclosing? h.link
  exact ⟨(hevolves.self hname hlt).trans h.unbound, (hevolves.grows.enclosing hlt).trans h.link⟩

theorem Keeps.grows {m : Machine} {name : Token} {closure : Closure}
    (h : s.Keeps m name closure) (hgrows : s.Grows s') : s'.Keeps m name closure :=
  ⟨hgrows.function h.entry, h.initializer⟩

/-- Where a frame acts for an object, links lead from it to a frame that holds the object. -/
theorem Remembers.home (h : s.Remembers H) {k : Nat} (hacts : ActsFor H k frame object method) :
    ∃ home, s.ancestor? k frame = some home ∧ s.Holds H home object method := by
  induction hacts with
  | bound hevent hbinds => exact ⟨_, rfl, h.bound hevent hbinds⟩
  | inside hevent hopens _ ih =>
    obtain ⟨home, hhome, hholds⟩ := ih
    refine ⟨home, ?_, hholds⟩
    rw [ancestor?, (h.opened hevent hopens).link, Option.bind_some, hhome]

/-- A frame acts for one object at most. -/
theorem Remembers.unique (h : s.Remembers H) {k k' object' : Nat} {method' : Routine}
    (hacts : ActsFor H k frame object method) (hacts' : ActsFor H k' frame object' method') :
    k' = k ∧ object' = object := by
  induction hacts generalizing k' with
  | bound hevent hbinds =>
    have hvalue := (h.bound hevent hbinds).value
    cases hacts' with
    | bound hevent' hbinds' =>
      rw [(h.bound hevent' hbinds').value] at hvalue
      cases hvalue
      exact ⟨rfl, rfl⟩
    | inside hevent' hopens' _ =>
      rw [(h.opened hevent' hopens').unbound] at hvalue
      cases hvalue
  | inside hevent hopens _ ih =>
    have hframe := h.opened hevent hopens
    cases hacts' with
    | bound hevent' hbinds' =>
      have hvalue := (h.bound hevent' hbinds').value
      rw [hframe.unbound] at hvalue
      cases hvalue
    | inside hevent' hopens' hacts' =>
      have hlink := (h.opened hevent' hopens').link
      rw [hframe.link] at hlink
      cases hlink
      obtain ⟨rfl, rfl⟩ := ih hacts'
      exact ⟨rfl, rfl⟩

end Store

/-! ## 5. What a run adds -/

/-- The value of a property that is a method, and the machine it leaves. -/
theorem Accesses.run {fuel object : Nat} {m m' : Machine} {e : Expr} {name : Token}
    {method : Closure} (h : Accesses fuel m e name object method m') (id : Nat) :
    evaluate (fuel + 1) (.property id e name) m =
      .ok (.function m'.store.functions.size)
        { m' with store := (m'.store.addBoundMethod method object).2 } := by
  rw [evaluate]
  change EStateM.bind _ _ m = _
  unfold EStateM.bind
  simp only [h.evaluated, Exec.readProperty, h.noField, h.found]
  rfl

section Runs

variable {good : Token → Prop} {H : Events} {hops : HopTable} {bound fuel : Nat} {task : Task}
variable {m : Machine} {frame outer object : Nat} {method : Closure}

theorem not_name_forInstances : ¬ (Discipline.forInstances good H hops bound).name selfName :=
  fun h => h rfl

variable (hlaw : (Discipline.forInstances good H hops bound).Lawful H)
include hlaw

section Accesses

variable {id : Nat} {e : Expr} {name : Token} {m' : Machine}
variable (hready : (Discipline.forInstances good H hops bound).Ready H (fuel + 1)
  (.evaluate (.property id e name)) m)
include hready

/-- A method that is accessed is granted to the class of the object. -/
theorem Accesses.granted (h : Accesses fuel m e name object method m') :
    ∃ entry, m'.store.objects[object]? = some entry ∧
      (Discipline.forInstances good H hops bound).method entry.classId name.lexeme method := by
  have hgranted := (Discipline.kept hlaw _ hready).granted hready.granted
  rw [Task.run, Exec.left_of_ok (h.run id)] at hgranted
  have hfound := h.found
  simp only [Store.methodOf?, Option.bind_eq_bind, Option.bind_eq_some_iff] at hfound
  obtain ⟨entry, hentry, info, hinfo, hget⟩ := hfound
  exact ⟨entry, hentry, hgranted.method hinfo hget⟩

/-- After a property was accessed that is a method, the method is a function. -/
theorem Accesses.keeps (h : Accesses fuel m e name object method m') :
    ((evaluate (fuel + 1) (.property id e name)).left m).store.Keeps m' name method := by
  obtain ⟨entry, -, hname, hinit, -⟩ := h.granted hlaw hready
  rw [Exec.left_of_ok (h.run id)]
  refine ⟨Array.getElem?_push_size, hinit.trans ?_⟩
  rw [Routine.isInitializer, hname]

end Accesses

variable (hready : (Discipline.forInstances good H hops bound).Ready H fuel task m)
include hready

/-- After a method was bound to an object, its frame holds the object. -/
theorem BindsMethod.holds (hbinds : BindsMethod fuel task m frame object method) :
    ((task.run fuel).left m).store.Holds H frame object method.routine := by
  cases hbinds with
  | @accessed fuel id e name _ _ _ m' haccesses =>
    obtain ⟨entry, hentry, -, -, hdeclares, -⟩ := haccesses.granted hlaw hready
    rw [Task.run, Exec.left_of_ok (haccesses.run id)]
    refine ⟨?_, entry, hentry, hdeclares⟩
    have hhere := m'.store.getHere?_bindMethod method object m'.store.frames.size selfName
    rwa [if_pos ⟨rfl, rfl⟩] at hhere
  | @constructed fuel classId info paren arguments _ _ hget =>
    obtain ⟨-, -, hdeclares, -⟩ := hready.allowed _ _ hget
    have hevolves := Discipline.evolves_asked hlaw hready (.classInitializer hget rfl rfl)
    refine Store.Holds.evolves ⟨?_, ⟨classId, .empty⟩, ?_, hdeclares⟩ not_name_forInstances hevolves
    · have hhere := (m.store.addObject classId).2.getHere?_bindMethod method m.store.objects.size
        m.store.frames.size selfName
      rwa [if_pos ⟨rfl, rfl⟩] at hhere
    · exact Array.getElem?_push_size

/-- After a frame was made inside another one, it holds no object. -/
theorem OpensFrame.nested (hopens : OpensFrame fuel task m frame outer) :
    ((task.run fuel).left m).store.Nested frame outer := by
  have hnone : m.store.getHere? m.store.frames.size selfName = none :=
    m.store.getHere?_of_le (Nat.le_refl _) selfName
  cases hopens with
  | block =>
    have hevolves := Discipline.evolves_asked hlaw hready .block
    refine Store.Nested.evolves ⟨?_, ?_⟩ not_name_forInstances hevolves
    · rw [Machine.inNewFrame, Store.getHere?_addFrame, hnone]
    · rw [Machine.inNewFrame, Store.enclosing?_addFrame, if_pos rfl]
  | @body fuel closure arguments m =>
    have hevolves := Discipline.evolves_asked hlaw hready .body
    refine Store.Nested.evolves ⟨?_, enclosing?_forBody m closure arguments⟩
      not_name_forInstances hevolves
    have hdefined : Evolves (Discipline.forInstances good H hops bound).toLicence
        (m.store.addFrame (some closure.frame)).2 (m.forBody closure arguments).store := by
      refine Evolves.defineAll fun pair hpair => ?_
      obtain ⟨t, ht, hname⟩ := List.mem_map.mp (List.of_mem_zip hpair).1
      exact hname ▸ hlaw.parameter hready.allowed ht
    rw [hdefined.self not_name_forInstances (by simp), Store.getHere?_addFrame, hnone]

end Runs

/-! ## 6. What calls give -/

section Calls

variable {α β : Type} {fuel : Nat} {m m' : Machine} {paren : Token} {arguments : List Value}
variable {value result : Value} {callee : Store.Callee}

theorem Exec.ok_of_bind {x : Exec α} {f : α → Exec β} {b : β} (h : (x >>= f) m = .ok b m') :
    ∃ a m₁, x m = .ok a m₁ ∧ f a m₁ = .ok b m' := by
  change EStateM.bind x f m = _ at h
  unfold EStateM.bind at h
  cases hx : x m with
  | ok a m₁ =>
    rw [hx] at h
    exact ⟨a, m₁, rfl, h⟩
  | error halt m₁ =>
    rw [hx] at h
    cases h

/-- What a call gives, entering its callee gives, and with the same store. -/
theorem enter_of_call (h : call fuel value paren arguments m = .ok result m') :
    ∃ rest callee m₁, m.store.callee? value = some callee ∧
      enter rest callee paren arguments { m with depth := m.depth + 1 } = .ok result m₁ ∧
      m'.store = m₁.store := by
  cases fuel with
  | zero => cases h
  | succ fuel =>
    rw [call, get_bind] at h
    cases hcallee : m.store.callee? value with
    | none =>
      rw [hcallee] at h
      cases h
    | some callee =>
      rw [hcallee] at h
      dsimp only at h
      split at h
      · cases h
      · rw [get_bind] at h
        split at h
        · cases h
        · unfold Exec.asCall at h
          cases hrun : enter fuel callee paren arguments { m with depth := m.depth + 1 } with
          | ok a m₁ =>
            rw [hrun] at h
            cases h
            exact ⟨fuel, callee, m₁, rfl, hrun, rfl⟩
          | error halt m₁ =>
            rw [hrun] at h
            cases h

theorem grows_of_invoke {closure : Closure} (h : invoke fuel closure arguments m = .ok result m') :
    m.store.Grows m'.store := by
  have hgrows := grows_task fuel (.invoke closure arguments) m
  rwa [Task.run, Exec.left_of_ok h] at hgrows

/-- Entering a class gives the instance that is made for the call. -/
theorem enter_class {classId : Nat} {info : ClassInfo}
    (h : enter fuel (.classRef classId info) paren arguments m = .ok result m') :
    result = .object m.store.objects.size ∧
      ∃ fields, m'.store.objects[m.store.objects.size]? = some ⟨classId, fields⟩ := by
  cases fuel with
  | zero => cases h
  | succ fuel =>
    have hnew : (m.store.addObject classId).2.objects[m.store.objects.size]? =
        some ⟨classId, .empty⟩ := Array.getElem?_push_size
    rw [enter] at h
    obtain ⟨object, m₁, hobject, h⟩ := Exec.ok_of_bind h
    cases hobject
    cases hinit : info.methods.get? initializerName with
    | none =>
      rw [hinit] at h
      cases h
      exact ⟨rfl, .empty, hnew⟩
    | some method =>
      rw [hinit] at h
      dsimp only at h
      obtain ⟨bound, m₂, hbound, hrest⟩ := Exec.ok_of_bind h
      cases hbound
      obtain ⟨_, m₃, hinvoke, hdone⟩ := Exec.ok_of_bind hrest
      cases hdone
      obtain ⟨fields, hfields, -⟩ := (grows_of_invoke hinvoke).object hnew
      exact ⟨rfl, fields, hfields⟩

/-- Calling a class gives a new instance of it. -/
theorem call_class {classId : Nat}
    (h : call fuel (.classRef classId) paren arguments m = .ok result m') :
    result = .object m.store.objects.size ∧
      ∃ fields, m'.store.objects[m.store.objects.size]? = some ⟨classId, fields⟩ := by
  obtain ⟨rest, callee, m₁, hcallee, henter, hstore⟩ := enter_of_call h
  simp only [Store.callee?, Option.map_eq_some_iff] at hcallee
  obtain ⟨info, -, rfl⟩ := hcallee
  have hmade := enter_class henter
  rw [hstore]
  exact hmade

/-- Running an initializer gives what the frame around its body holds at the end, whatever path the
body takes. -/
theorem invoke_initializer {closure : Closure} (hinit : closure.isInitializer = true)
    (h : invoke fuel closure arguments m = .ok result m') :
    result = (m'.store.getHere? closure.frame selfName).getD .nil := by
  cases fuel with
  | zero => cases h
  | succ fuel =>
    rw [invoke] at h
    obtain ⟨frame, m₁, -, h⟩ := Exec.ok_of_bind h
    obtain ⟨flow, m₂, -, h⟩ := Exec.ok_of_bind h
    unfold Exec.resultOfCall at h
    rw [if_pos hinit] at h
    cases h
    rfl

/-- Calling a function that is an initializer gives what the frame around its body holds. -/
theorem call_initializer {id : Nat}
    (h : call fuel (.function id) paren arguments m = .ok result m') :
    ∃ closure, m.store.functions[id]? = some closure ∧ (closure.isInitializer = true →
      result = (m'.store.getHere? closure.frame selfName).getD .nil) := by
  obtain ⟨rest, callee, m₁, hcallee, henter, hstore⟩ := enter_of_call h
  simp only [Store.callee?, Option.map_eq_some_iff] at hcallee
  obtain ⟨closure, hclosure, rfl⟩ := hcallee
  refine ⟨closure, hclosure, fun hinit => ?_⟩
  rw [hstore]
  cases rest with
  | zero => cases henter
  | succ rest => exact invoke_initializer hinit henter

end Calls

end ScriptLang
