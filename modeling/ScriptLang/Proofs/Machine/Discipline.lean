/-
ScriptLang.Proofs.Machine.Discipline — what a run does to the store, and under
which rules.

A discipline says which statements and expressions may be run in which frame,
and which names, functions and methods may come into the store. It is lawful
for some events if whatever is allowed leads to what is allowed: the parts of
an allowed statement are allowed, what an allowed declaration puts into the
store is granted, and the body of a granted function is allowed in the new
frame in which it is called. The events are the tasks that a run begins, and
the rules for new frames may use that they are.

Under a lawful discipline, every run that begins with an allowed task on a
store of granted entries changes the store only in granted ways (`kept`).
Everything it begins meanwhile is allowed, on a store between the one it
started from and the one it leaves behind (`between`, `script_between`).

There are three kinds of use. A discipline that allows everything shows what
all runs have in common. One that looks only at code shows that what is run was
written somewhere. And one that also looks at frames relates the frames of a
run to the text.
-/
import ScriptLang.Proofs.Machine.Control
import ScriptLang.Proofs.Store.Changes

namespace ScriptLang

open Exec
open Store (Change Evolves Granted)

/-! ## 1. Parts of trees -/

/-- The expressions that an expression is made of. -/
def Expr.operands : Expr → List Expr
  | .literal _ _ => []
  | .group _ inner => [inner]
  | .unary _ _ operand => [operand]
  | .binary _ left _ right => [left, right]
  | .logical _ left _ right => [left, right]
  | .read _ _ => []
  | .assign _ _ value => [value]
  | .call _ callee _ arguments => callee :: arguments
  | .property _ object _ => [object]
  | .setProperty _ object _ value => [object, value]
  | .self _ _ => []

/-- The expressions that a statement evaluates itself. -/
def Stmt.expressions : Stmt → List Expr
  | .expression value => [value]
  | .print value => [value]
  | .var _ initializer => initializer.toList
  | .block _ => []
  | .ifThen condition _ => [condition]
  | .ifElse condition _ _ => [condition]
  | .loop condition _ => [condition]
  | .function _ => []
  | .ret _ value => value.toList
  | .classDecl _ _ => []

/-- The statements that a statement runs in its own frame. -/
def Stmt.branches : Stmt → List Stmt
  | .ifThen _ thenBranch => [thenBranch]
  | .ifElse _ thenBranch elseBranch => [thenBranch, elseBranch]
  | .loop _ body => [body]
  | _ => []

/-- The class that a declaration in a frame makes. -/
def ClassInfo.declared (frame : Nat) (name : Token) (methods : List Routine) : ClassInfo :=
  ⟨name.lexeme, NameMap.empty.insertAll (methods.map fun method =>
    (method.name.lexeme, ⟨method, frame, method.isInitializer⟩))⟩

/-- The methods of a class are written in its declaration. -/
theorem ClassInfo.get?_declared {frame : Nat} {name : Token} {methods : List Routine}
    {other : String} {method : Closure}
    (h : (ClassInfo.declared frame name methods).methods.get? other = some method) :
    ∃ routine ∈ methods, routine.name.lexeme = other ∧
      method = ⟨routine, frame, routine.isInitializer⟩ := by
  obtain hmem | hnone := Store.mem_of_get?_insertAll h
  · obtain ⟨routine, hroutine, heq⟩ := List.mem_map.mp hmem
    cases heq
    exact ⟨routine, hroutine, rfl, rfl⟩
  · cases hnone

/-! ## 2. Disciplines -/

/-- Tasks that are begun on a machine, each with the fuel it is given. -/
abbrev Events := Nat → Task → Machine → Prop

/-- Doing the first task, the evaluator begins the second one with the fuel that is left. -/
inductive Undertakes : Nat → Task → Machine → Events where
  | here {fuel task m} : Undertakes fuel task m fuel task m
  | step {fuel task m task' m' rest task'' m''} : Asks fuel task m task' m' →
      Undertakes fuel task' m' rest task'' m'' → Undertakes (fuel + 1) task m rest task'' m''

/-- A property expression comes to bind a method: its object is evaluated and has no field of the
name, but its class has a method. -/
structure Accesses (fuel : Nat) (m : Machine) (e : Expr) (name : Token) (object : Nat)
    (method : Closure) (m' : Machine) : Prop where
  evaluated : evaluate fuel e m = .ok (.object object) m'
  noField : m'.store.field? object name.lexeme = none
  found : m'.store.methodOf? object name.lexeme = some method

/-- What may be run in a frame, and what may come into the store. -/
structure Discipline extends Store.Licence where
  statement : Nat → Stmt → Prop
  expression : Nat → Expr → Prop

/-- What a discipline allows leads to what it allows, as far as it is among the events. -/
structure Discipline.Lawful (D : Discipline) (H : Events) : Prop where
  operand : ∀ {frame e e'}, D.expression frame e → e' ∈ e.operands → D.expression frame e'
  own : ∀ {frame s e}, D.statement frame s → e ∈ s.expressions → D.expression frame e
  branch : ∀ {frame s s'}, D.statement frame s → s' ∈ s.branches → D.statement frame s'
  block : ∀ {fuel body m s}, H (fuel + 1) (.execute (.block body)) m →
    D.statement m.frame (.block body) → s ∈ body → D.statement m.store.frames.size s
  body : ∀ {fuel closure arguments m s}, H (fuel + 1) (.invoke closure arguments) m →
    D.function closure → s ∈ closure.routine.body → D.statement m.store.frames.size s
  declared : ∀ {frame name initializer}, D.statement frame (.var name initializer) →
    D.name name.lexeme
  assigned : ∀ {frame id name value}, D.expression frame (.assign id name value) →
    D.name name.lexeme
  parameter : ∀ {closure t}, D.function closure → t ∈ closure.routine.parameters → D.name t.lexeme
  function : ∀ {fuel routine m}, H (fuel + 1) (.execute (.function routine)) m →
    D.statement m.frame (.function routine) →
    D.name routine.name.lexeme ∧ D.function ⟨routine, m.frame, false⟩
  classDecl : ∀ {fuel name methods m}, H (fuel + 1) (.execute (.classDecl name methods)) m →
    D.statement m.frame (.classDecl name methods) →
    D.name name.lexeme ∧ ∀ method ∈ methods,
      D.method m.store.classes.size method.name.lexeme ⟨method, m.frame, method.isInitializer⟩
  accessed : ∀ {fuel id e name m object method m' entry},
    H (fuel + 1) (.evaluate (.property id e name)) m → Accesses fuel m e name object method m' →
    m'.store.objects[object]? = some entry → D.method entry.classId name.lexeme method →
    D.function { method with frame := m'.store.frames.size }
  constructed : ∀ {fuel classId info paren arguments m method},
    H (fuel + 1) (.enter (.classRef classId info) paren arguments) m →
    info.methods.get? initializerName = some method → D.method classId initializerName method →
    D.function { method with frame := m.store.frames.size }

/-- A task is allowed in a frame. -/
def Discipline.Allows (D : Discipline) (frame : Nat) : Task → Prop
  | .execute s => D.statement frame s
  | .executeAll body => ∀ s ∈ body, D.statement frame s
  | .executeLoop condition body => D.expression frame condition ∧ D.statement frame body
  | .evaluate e => D.expression frame e
  | .evaluateOption e => ∀ e' ∈ e.toList, D.expression frame e'
  | .evaluateAll es => ∀ e ∈ es, D.expression frame e
  | .call _ _ _ => True
  | .enter (.host _) _ _ => True
  | .enter (.function closure) _ _ => D.function closure
  | .enter (.classRef classId info) _ _ =>
    ∀ name method, info.methods.get? name = some method → D.method classId name method
  | .invoke closure _ => D.function closure

/-- An allowed task begins on a store of granted entries, and what it begins meanwhile is among
the events. -/
structure Discipline.Ready (D : Discipline) (H : Events) (fuel : Nat) (task : Task) (m : Machine) :
    Prop where
  allowed : D.Allows m.frame task
  granted : Granted D.toLicence m.store
  events : ∀ {rest task' m'}, Undertakes fuel task m rest task' m' → H rest task' m'

/-! ## 3. What is left behind -/

section Leaving

variable {α β : Type} {x : Exec α} {f : α → Exec β} {m m' : Machine} {a : α} {halt : Halt}
variable {L : Store.Licence}

theorem Exec.left_of_ok (h : x m = .ok a m') : x.left m = m' := by
  simp [Exec.left, h]

/-- The value that something gives, if it does. -/
def Exec.gives? (x : Exec α) (m : Machine) : Option α :=
  match x m with
  | .ok a _ => some a
  | .error _ _ => none

theorem Exec.ok_of_gives? (h : x.gives? m = some a) : x m = .ok a (x.left m) := by
  unfold Exec.gives? at h
  unfold Exec.left
  cases hx : x m with
  | ok b m₁ =>
    rw [hx] at h
    cases h
    rfl
  | error halt m₁ =>
    rw [hx] at h
    cases h

theorem Exec.left_bind_of_ok (h : x m = .ok a m') : (x >>= f).left m = (f a).left m' := by
  change Exec.left (EStateM.bind x f) m = _
  simp [Exec.left, EStateM.bind, h]

theorem Exec.left_bind_of_error (h : x m = .error halt m') : (x >>= f).left m = m' := by
  change Exec.left (EStateM.bind x f) m = _
  simp [Exec.left, EStateM.bind, h]

theorem left_inFrame_store (frame : Nat) (x : Exec α) (m : Machine) :
    ((inFrame frame x).left m).store = (x.left { m with frame := frame }).store := by
  unfold Exec.left Exec.inFrame
  cases x { m with frame := frame } <;> rfl

theorem left_asCall_store (x : Exec α) (m : Machine) :
    ((asCall x).left m).store = (x.left { m with depth := m.depth + 1 }).store := by
  unfold Exec.left Exec.asCall
  cases x { m with depth := m.depth + 1 } <;> rfl

/-- Something never changes the store. -/
def Exec.Still (x : Exec α) : Prop := ∀ m, (x.left m).store = m.store

theorem Exec.Still.evolves (h : x.Still) (m : Machine) : Evolves L m.store (x.left m).store := by
  rw [h m]

theorem still_pure (a : α) : (pure a : Exec α).Still := fun _ => rfl

theorem still_raise (token : Token) (cause : RuntimeCause) : (raise token cause : Exec α).Still :=
  fun _ => rfl

theorem still_ofExcept (token : Token) (result : Except RuntimeCause α) :
    (ofExcept token result).Still := by
  cases result with
  | ok a => exact still_pure a
  | error cause => exact still_raise token cause

theorem still_printLine (value : Value) : (printLine value).Still := by
  intro m
  unfold Exec.left printLine
  dsimp only
  cases (m.sink.write (Text.Utf8.encode (m.store.display value ++ "\n"))).1 <;> rfl

theorem still_readVariable (id : Nat) (name : Token) : (readVariable id name).Still := by
  intro m
  unfold Exec.left readVariable
  dsimp only
  split <;> rename_i h <;> split at h <;> cases h <;> rfl

theorem still_callHost (provided : HostFunction) (paren : Token) (arguments : List Value) :
    (callHost provided paren arguments).Still := by
  intro m
  unfold Exec.left callHost
  dsimp only
  cases provided.run (m.clock m.readings) _ <;> rfl

theorem still_resultOfCall (closure : Closure) (flow : Flow) :
    (resultOfCall closure flow).Still := by
  unfold resultOfCall
  split
  · exact fun _ => rfl
  · cases flow <;> exact still_pure _

theorem still_flush : flush.Still := by
  intro m
  unfold Exec.left flush
  cases m.sink.flushFault <;> rfl

theorem evolves_defineHere {name : String} (value : Value) (h : L.name name) (m : Machine) :
    Evolves L m.store ((defineHere name value).left m).store :=
  .single (.define m.frame value h)

theorem evolves_writeVariable {id : Nat} {name : Token} (value : Value) (h : L.name name.lexeme)
    (m : Machine) : Evolves L m.store ((writeVariable id name value).left m).store := by
  unfold Exec.left writeVariable
  dsimp only
  split <;> rename_i hwritten <;> split at hwritten <;> cases hwritten
  · exact .single (.define _ value h)
  · exact .refl

end Leaving

/-! ## 4. Passing -/

section Passing

variable {α β : Type} {D : Discipline} {H : Events} {fuel : Nat} {task task' : Task}
variable {m m' : Machine} {x : Exec α}

/-- With an amount of fuel, the tasks that are ready change the store in granted ways. -/
def Discipline.Kept (D : Discipline) (H : Events) (fuel : Nat) : Prop :=
  ∀ {task m}, D.Ready H fuel task m →
    Evolves D.toLicence m.store ((task.run fuel).left m).store

/-- A task is ready, and the store goes from a first to a last one by way of the task. -/
structure Discipline.Between (D : Discipline) (H : Events) (fuel : Nat) (first : Store)
    (task : Task) (m : Machine) (last : Store) : Prop where
  ready : D.Ready H fuel task m
  before : Evolves D.toLicence first m.store
  after : Evolves D.toLicence ((task.run fuel).left m).store last

/-- Something changes the store in granted ways, and so does each of the tasks it asks for. -/
structure Discipline.Passes (D : Discipline) (H : Events) (fuel : Nat) (x : Exec α) (m : Machine)
    (asked : Task → Machine → Prop) : Prop where
  run : Evolves D.toLicence m.store (x.left m).store
  between : ∀ {task' m'}, asked task' m' → D.Between H fuel m.store task' m' (x.left m).store

namespace Discipline

theorem Ready.event (h : D.Ready H fuel task m) : H fuel task m := h.events .here

theorem Ready.child (h : D.Ready H (fuel + 1) task m) (hask : Asks fuel task m task' m')
    (hallowed : D.Allows m'.frame task') (hbefore : Evolves D.toLicence m.store m'.store) :
    D.Ready H fuel task' m' :=
  ⟨hallowed, hbefore.granted h.granted, fun hrest => h.events (.step hask hrest)⟩

namespace Passes

variable {P Q : Task → Machine → Prop}

theorem mono (h : D.Passes H fuel x m P) (hsub : ∀ {t m'}, Q t m' → P t m') :
    D.Passes H fuel x m Q :=
  ⟨h.run, fun hask => h.between (hsub hask)⟩

/-- What asks for nothing passes if it changes the store in granted ways. -/
theorem alone (h : Evolves D.toLicence m.store (x.left m).store) :
    D.Passes H fuel x m fun _ _ => False :=
  ⟨h, False.elim⟩

theorem still (h : x.Still) : D.Passes H fuel x m fun _ _ => False :=
  .alone (h.evolves m)

theorem child (task : Task) (ih : D.Kept H fuel) (h : D.Ready H fuel task m) :
    D.Passes H fuel (task.run fuel) m fun t m' => t = task ∧ m' = m := by
  refine ⟨ih h, ?_⟩
  rintro _ _ ⟨rfl, rfl⟩
  exact ⟨h, .refl, .refl⟩

/-- One thing after the other: the second one starts from what the first one leaves behind. -/
theorem bind {f : α → Exec β} {N : α → Machine → Task → Machine → Prop}
    (hx : D.Passes H fuel x m P)
    (hf : ∀ a m₁, x m = .ok a m₁ → Evolves D.toLicence m.store m₁.store →
      D.Passes H fuel (f a) m₁ (N a m₁)) :
    D.Passes H fuel (x >>= f) m fun t m' =>
      P t m' ∨ ∃ a m₁, x m = .ok a m₁ ∧ N a m₁ t m' := by
  cases hrun : x m with
  | error halt m₁ =>
    have hleft : (x >>= f).left m = x.left m := by
      rw [Exec.left_bind_of_error hrun, Exec.left, hrun]
    refine ⟨hleft ▸ hx.run, ?_⟩
    rintro t m' (hask | ⟨a, m₂, hok, -⟩)
    · exact hleft ▸ hx.between hask
    · cases hok
  | ok a m₁ =>
    have hleft : (x >>= f).left m = (f a).left m₁ := Exec.left_bind_of_ok hrun
    have hfirst : Evolves D.toLicence m.store m₁.store := Exec.left_of_ok hrun ▸ hx.run
    have hsecond := hf a m₁ hrun hfirst
    refine ⟨hleft ▸ hfirst.trans hsecond.run, ?_⟩
    rw [hleft]
    rintro t m' (hask | ⟨a', m₂, hok, hask⟩)
    · have hbetween := hx.between hask
      rw [Exec.left_of_ok hrun] at hbetween
      exact ⟨hbetween.ready, hbetween.before, hbetween.after.trans hsecond.run⟩
    · cases hok
      have hbetween := hsecond.between hask
      exact ⟨hbetween.ready, hfirst.trans hbetween.before, hbetween.after⟩

theorem ite {c : Prop} [Decidable c] {y : Exec α} (hx : c → D.Passes H fuel x m P)
    (hy : ¬ c → D.Passes H fuel y m Q) :
    D.Passes H fuel (if c then x else y) m fun t m' => c ∧ P t m' ∨ ¬ c ∧ Q t m' := by
  split
  · rename_i hc
    exact (hx hc).mono fun h => h.elim And.right fun h => absurd hc h.1
  · rename_i hc
    exact (hy hc).mono fun h => h.elim (fun h => absurd h.1 hc) And.right

theorem get {f : Machine → Exec α} (h : D.Passes H fuel (f m) m P) :
    D.Passes H fuel (get >>= f) m P := by
  have hleft : (MonadState.get >>= f).left m = (f m).left m := Exec.left_bind_of_ok rfl
  exact ⟨hleft ▸ h.run, hleft ▸ h.between⟩

theorem inFrame {frame : Nat} (h : D.Passes H fuel x { m with frame := frame } P) :
    D.Passes H fuel (inFrame frame x) m P := by
  have hstore := left_inFrame_store frame x m
  exact ⟨hstore ▸ h.run, fun hask => hstore ▸ h.between hask⟩

theorem asCall (h : D.Passes H fuel x { m with depth := m.depth + 1 } P) :
    D.Passes H fuel (asCall x) m P := by
  have hstore := left_asCall_store x m
  exact ⟨hstore ▸ h.run, fun hask => hstore ▸ h.between hask⟩

end Passes

end Discipline

end Passing

/-! ## 5. Tasks -/

namespace Discipline

variable {D : Discipline} {H : Events} {fuel : Nat} {m : Machine}

/-- A task that is ready passes, and asks for what it is said to ask for. -/
def PassesTask (D : Discipline) (H : Events) (fuel : Nat) (task : Task) (m : Machine) : Prop :=
  D.Ready H (fuel + 1) task m → D.Passes H fuel (task.run (fuel + 1)) m (Asks fuel task m)

/-- A task that ended well is back in its frame. -/
theorem frame_of_ok (task : Task) {m' : Machine} {a : task.Outcome}
    (h : task.run fuel m = .ok a m') : m'.frame = m.frame :=
  ((restores fuel task).ok h).frame_eq

section Expressions

variable (hlaw : D.Lawful H) (ih : D.Kept H fuel)
include hlaw

/-- An operand of an expression that is ready is ready when its turn comes. -/
theorem Lawful.operand_ready {e e' : Expr} {m₁ : Machine}
    (h : D.Ready H (fuel + 1) (.evaluate e) m)
    (hask : Asks fuel (.evaluate e) m (.evaluate e') m₁) (hmem : e' ∈ e.operands)
    (hframe : m₁.frame = m.frame) (hbefore : Evolves D.toLicence m.store m₁.store) :
    D.Ready H fuel (.evaluate e') m₁ :=
  h.child hask (hframe ▸ hlaw.operand h.allowed hmem) hbefore

include ih

theorem passes_group {id : Nat} {inner : Expr} :
    D.PassesTask H fuel (.evaluate (.group id inner)) m := by
  intro h
  have hinner := hlaw.operand_ready h .group (by simp [Expr.operands]) rfl .refl
  rw [Task.run, evaluate]
  refine .mono (.child _ ih hinner) fun hask => ?_
  cases hask
  exact ⟨rfl, rfl⟩

theorem passes_unary {id : Nat} {operator : Token} {operand : Expr} :
    D.PassesTask H fuel (.evaluate (.unary id operator operand)) m := by
  intro h
  have hoperand := hlaw.operand_ready h .operand (by simp [Expr.operands]) rfl .refl
  rw [Task.run, evaluate]
  refine .mono (.bind (.child _ ih hoperand) fun _ _ _ _ => .still (still_ofExcept _ _)) fun hask => ?_
  cases hask
  exact .inl ⟨rfl, rfl⟩

theorem passes_binary {id : Nat} {left right : Expr} {operator : Token} :
    D.PassesTask H fuel (.evaluate (.binary id left operator right)) m := by
  intro h
  have hleft := hlaw.operand_ready h .binaryLeft (by simp [Expr.operands]) rfl .refl
  rw [Task.run, evaluate]
  refine .mono (.bind (.child _ ih hleft) fun value m₁ hvalue hbefore => .bind (.child (.evaluate right) ih ?_)
    fun _ _ _ _ => .still (still_ofExcept _ _)) fun hask => ?_
  · exact hlaw.operand_ready h (.binaryRight hvalue) (by simp [Expr.operands])
      (frame_of_ok (.evaluate left) hvalue) hbefore
  · cases hask with
    | binaryLeft => exact .inl ⟨rfl, rfl⟩
    | binaryRight hvalue => exact .inr ⟨_, _, hvalue, .inl ⟨rfl, rfl⟩⟩

theorem passes_logical {id : Nat} {left right : Expr} {operator : Token} :
    D.PassesTask H fuel (.evaluate (.logical id left operator right)) m := by
  intro h
  have hleft := hlaw.operand_ready h .logicalLeft (by simp [Expr.operands]) rfl .refl
  rw [Task.run, evaluate]
  refine .mono (.bind (.child _ ih hleft) fun value m₁ hvalue hbefore =>
    .ite (fun _ => .still (still_pure value)) fun hdecides => .child (.evaluate right) ih ?_) fun hask => ?_
  · exact hlaw.operand_ready h (.logicalRight hvalue (by simpa using hdecides))
      (by simp [Expr.operands]) (frame_of_ok (.evaluate left) hvalue) hbefore
  · cases hask with
    | logicalLeft => exact .inl ⟨rfl, rfl⟩
    | logicalRight hvalue hdecides =>
      exact .inr ⟨_, _, hvalue, .inr ⟨by simp [hdecides], rfl, rfl⟩⟩

theorem passes_assign {id : Nat} {name : Token} {value : Expr} :
    D.PassesTask H fuel (.evaluate (.assign id name value)) m := by
  intro h
  have hvalue := hlaw.operand_ready h .assigned (by simp [Expr.operands]) rfl .refl
  rw [Task.run, evaluate]
  refine .mono (.bind (.child _ ih hvalue) fun assigned m₁ _ _ =>
    .bind (.alone (evolves_writeVariable assigned (hlaw.assigned h.allowed) m₁))
      fun _ _ _ _ => .still (still_pure assigned)) fun hask => ?_
  cases hask
  exact .inl ⟨rfl, rfl⟩

theorem passes_call {id : Nat} {callee : Expr} {paren : Token} {arguments : List Expr} :
    D.PassesTask H fuel (.evaluate (.call id callee paren arguments)) m := by
  intro h
  have hcallee := hlaw.operand_ready h .callee (by simp [Expr.operands]) rfl .refl
  rw [Task.run, evaluate]
  refine .mono (.bind (.child _ ih hcallee) fun value m₁ hvalue hbefore =>
    .bind (.child (.evaluateAll arguments) ih ?_) fun values m₂ hvalues hbefore' =>
      .child (.call value paren values) ih ?_) fun hask => ?_
  · refine h.child (.arguments hvalue) (fun e he => ?_) hbefore
    rw [frame_of_ok (.evaluate callee) hvalue]
    exact hlaw.operand h.allowed (List.mem_cons_of_mem _ he)
  · exact h.child (.call hvalue hvalues) trivial (hbefore.trans hbefore')
  · cases hask with
    | callee => exact .inl ⟨rfl, rfl⟩
    | arguments hvalue => exact .inr ⟨_, _, hvalue, .inl ⟨rfl, rfl⟩⟩
    | call hvalue hvalues => exact .inr ⟨_, _, hvalue, .inr ⟨_, _, hvalues, rfl, rfl⟩⟩

omit ih in
/-- Reading a property may bind a method. -/
theorem evolves_readProperty {id : Nat} {e : Expr} {name : Token} {object : Nat} {m₁ : Machine}
    (h : D.Ready H (fuel + 1) (.evaluate (.property id e name)) m)
    (hobject : evaluate fuel e m = .ok (.object object) m₁)
    (hbefore : Evolves D.toLicence m.store m₁.store) :
    Evolves D.toLicence m₁.store ((readProperty object name).left m₁).store := by
  unfold Exec.left readProperty
  cases hfield : m₁.store.field? object name.lexeme with
  | some value => exact .refl
  | none =>
    cases hmethod : m₁.store.methodOf? object name.lexeme with
    | none => exact .refl
    | some method =>
      have hfound := hmethod
      simp only [Store.methodOf?, Option.bind_eq_bind, Option.bind_eq_some_iff] at hfound
      obtain ⟨entry, hentry, info, hinfo, hget⟩ := hfound
      have hgranted := (hbefore.granted h.granted).method hinfo hget
      have hfunction := hlaw.accessed h.event ⟨hobject, hfield, hmethod⟩ hentry hgranted
      exact .tail (.single (.bindMethod method object)) (.addFunction hfunction)

theorem passes_property {id : Nat} {object : Expr} {name : Token} :
    D.PassesTask H fuel (.evaluate (.property id object name)) m := by
  intro h
  have hobject := hlaw.operand_ready h .propertyObject (by simp [Expr.operands]) rfl .refl
  rw [Task.run, evaluate]
  refine .mono (.bind (N := fun _ _ _ _ => False) (.child _ ih hobject)
    fun value m₁ hvalue hbefore => ?_) fun hask => ?_
  · cases value with
    | object target => exact .alone (evolves_readProperty hlaw h hvalue hbefore)
    | nil | bool | number | text | host | function | classRef =>
      exact .still (still_raise name .noProperties)
  · cases hask
    exact .inl ⟨rfl, rfl⟩

theorem passes_setProperty {id : Nat} {object value : Expr} {name : Token} :
    D.PassesTask H fuel (.evaluate (.setProperty id object name value)) m := by
  intro h
  have hobject := hlaw.operand_ready h .fieldObject (by simp [Expr.operands]) rfl .refl
  rw [Task.run, evaluate]
  refine .mono (.bind
    (N := fun found m₁ t m' => (∃ target, found = .object target) ∧ t = .evaluate value ∧ m' = m₁)
    (.child _ ih hobject) fun found m₁ hfound hbefore => ?_) fun hask => ?_
  · cases found with
    | object target =>
      have hvalue := hlaw.operand_ready h (.fieldValue hfound) (by simp [Expr.operands])
        (frame_of_ok (.evaluate object) hfound) hbefore
      refine .mono (.bind (.child _ ih hvalue) fun assigned m₂ _ _ =>
        .bind (.alone (.single (.setField target name.lexeme assigned)))
          fun _ _ _ _ => .still (still_pure assigned)) fun hask => .inl hask.2
    | nil | bool | number | text | host | function | classRef =>
      exact .mono (.still (still_raise name .noFields)) fun hask => by
        obtain ⟨⟨target, htarget⟩, -⟩ := hask
        cases htarget
  · cases hask with
    | fieldObject => exact .inl ⟨rfl, rfl⟩
    | fieldValue hfound => exact .inr ⟨_, _, hfound, ⟨_, rfl⟩, rfl, rfl⟩

theorem passes_evaluate {e : Expr} : D.PassesTask H fuel (.evaluate e) m := by
  cases e with
  | literal => exact fun _ => .mono (.still (still_pure _)) fun hask => by cases hask
  | group => exact passes_group hlaw ih
  | unary => exact passes_unary hlaw ih
  | binary => exact passes_binary hlaw ih
  | logical => exact passes_logical hlaw ih
  | read => exact fun _ => .mono (.still (still_readVariable _ _)) fun hask => by cases hask
  | assign => exact passes_assign hlaw ih
  | call => exact passes_call hlaw ih
  | property => exact passes_property hlaw ih
  | setProperty => exact passes_setProperty hlaw ih
  | self => exact fun _ => .mono (.still (still_readVariable _ _)) fun hask => by cases hask

omit hlaw in
theorem passes_evaluateOption {e : Option Expr} : D.PassesTask H fuel (.evaluateOption e) m := by
  intro h
  cases e with
  | none =>
    rw [Task.run, evaluateOption]
    exact .mono (.still (still_pure _)) fun hask => by cases hask
  | some e =>
    rw [Task.run, evaluateOption]
    refine .mono (.child (.evaluate e) ih ?_) fun hask => ?_
    · exact h.child .present (h.allowed e (by simp)) .refl
    · cases hask
      exact ⟨rfl, rfl⟩

omit hlaw in
theorem passes_evaluateAll {es : List Expr} : D.PassesTask H fuel (.evaluateAll es) m := by
  intro h
  cases es with
  | nil =>
    rw [Task.run, evaluateAll]
    exact .mono (.still (still_pure _)) fun hask => by cases hask
  | cons e rest =>
    have hfirst := h.child .head (h.allowed e List.mem_cons_self) .refl
    rw [Task.run, evaluateAll]
    refine .mono (.bind (.child _ ih hfirst) fun value m₁ hvalue hbefore =>
      .bind (.child (.evaluateAll rest) ih ?_) fun _ _ _ _ => .still (still_pure _))
      fun hask => ?_
    · refine h.child (.tail hvalue) (fun e' he' => ?_) hbefore
      rw [frame_of_ok (.evaluate e) hvalue]
      exact h.allowed e' (List.mem_cons_of_mem _ he')
    · cases hask with
      | head => exact .inl ⟨rfl, rfl⟩
      | tail hvalue => exact .inr ⟨_, _, hvalue, .inl ⟨rfl, rfl⟩⟩

end Expressions

section Statements

variable (hlaw : D.Lawful H) (ih : D.Kept H fuel)

/-- The condition, the value or the branch of a statement that is ready is ready when its turn
comes. -/
theorem Lawful.own_ready (hlaw : D.Lawful H) {s : Stmt} {e : Expr}
    (h : D.Ready H (fuel + 1) (.execute s) m)
    (hask : Asks fuel (.execute s) m (.evaluate e) m) (hmem : e ∈ s.expressions) :
    D.Ready H fuel (.evaluate e) m :=
  h.child hask (hlaw.own h.allowed hmem) .refl

theorem Lawful.option_ready (hlaw : D.Lawful H) {s : Stmt} {e : Option Expr}
    (h : D.Ready H (fuel + 1) (.execute s) m)
    (hask : Asks fuel (.execute s) m (.evaluateOption e) m) (hmem : s.expressions = e.toList) :
    D.Ready H fuel (.evaluateOption e) m :=
  h.child hask (fun _ he' => hlaw.own h.allowed (hmem ▸ he')) .refl

theorem Lawful.branch_ready (hlaw : D.Lawful H) {s s' : Stmt} {condition : Expr} {value : Value}
    {m₁ : Machine} (h : D.Ready H (fuel + 1) (.execute s) m)
    (hask : Asks fuel (.execute s) m (.execute s') m₁) (hmem : s' ∈ s.branches)
    (hcondition : evaluate fuel condition m = .ok value m₁)
    (hbefore : Evolves D.toLicence m.store m₁.store) : D.Ready H fuel (.execute s') m₁ :=
  h.child hask (frame_of_ok (.evaluate condition) hcondition ▸ hlaw.branch h.allowed hmem) hbefore

include hlaw

/-- Declaring a class gives its name a value twice and makes the class in between. -/
theorem evolves_declareClass {name : Token} {methods : List Routine}
    (h : D.Ready H (fuel + 1) (.execute (.classDecl name methods)) m) :
    Evolves D.toLicence m.store ((declareClass name methods).left m).store := by
  obtain ⟨hname, hmethods⟩ := hlaw.classDecl h.event h.allowed
  have hnil : Evolves D.toLicence m.store (m.store.define m.frame name.lexeme .nil) :=
    .single (.define m.frame .nil hname)
  have hclass : Evolves D.toLicence m.store ((m.store.define m.frame name.lexeme .nil).addClass
      (ClassInfo.declared m.frame name methods)).2 := by
    refine hnil.tail (.addClass fun other method hget => ?_)
    obtain ⟨routine, hroutine, rfl, rfl⟩ := ClassInfo.get?_declared hget
    exact hmethods routine hroutine
  unfold declareClass
  rw [Exec.left_bind_of_ok (x := defineHere _ _) rfl, Exec.left_bind_of_ok (x := get) rfl,
    Exec.left_bind_of_ok (x := onStore _) rfl, Exec.left_bind_of_ok (x := get) rfl]
  split
  · exact hclass.tail (.define _ _ hname)
  · exact hclass

include ih

theorem passes_expression {value : Expr} :
    D.PassesTask H fuel (.execute (.expression value)) m := by
  intro h
  have hvalue := hlaw.own_ready h .expression (by simp [Stmt.expressions])
  rw [Task.run, execute]
  refine .mono (.bind (.child _ ih hvalue) fun _ _ _ _ => .still (still_pure _)) fun hask => ?_
  cases hask
  exact .inl ⟨rfl, rfl⟩

theorem passes_print {value : Expr} : D.PassesTask H fuel (.execute (.print value)) m := by
  intro h
  have hvalue := hlaw.own_ready h .print (by simp [Stmt.expressions])
  rw [Task.run, execute]
  refine .mono (.bind (.child _ ih hvalue) fun _ _ _ _ => .bind (.still (still_printLine _))
    fun _ _ _ _ => .still (still_pure _)) fun hask => ?_
  cases hask
  exact .inl ⟨rfl, rfl⟩

theorem passes_var {name : Token} {initializer : Option Expr} :
    D.PassesTask H fuel (.execute (.var name initializer)) m := by
  intro h
  have hvalue := hlaw.option_ready h .initializer rfl
  rw [Task.run, execute]
  refine .mono (.bind (.child _ ih hvalue) fun value m₁ _ _ =>
    .bind (.alone (evolves_defineHere value (hlaw.declared h.allowed) m₁))
      fun _ _ _ _ => .still (still_pure _)) fun hask => ?_
  cases hask
  exact .inl ⟨rfl, rfl⟩

theorem passes_block {body : List Stmt} : D.PassesTask H fuel (.execute (.block body)) m := by
  intro h
  have hadd : Evolves D.toLicence m.store (m.store.addFrame (some m.frame)).2 :=
    .single (.addFrame m.frame)
  have hbody := h.child .block (fun _ hs => hlaw.block h.event h.allowed hs) hadd
  rw [Task.run, execute]
  refine .mono (.get (.bind (.alone hadd) fun inner m₁ hrun _ =>
    .inFrame (.child (.executeAll body) ih ?_))) fun hask => ?_
  · cases hrun
    exact hbody
  · cases hask
    exact .inr ⟨_, _, rfl, rfl, rfl⟩

theorem passes_ifThen {condition : Expr} {thenBranch : Stmt} :
    D.PassesTask H fuel (.execute (.ifThen condition thenBranch)) m := by
  intro h
  have hcondition := hlaw.own_ready h .ifThenCondition (by simp [Stmt.expressions])
  rw [Task.run, execute]
  refine .mono (.bind (.child _ ih hcondition) fun value m₁ hvalue hbefore =>
    .ite (fun htruthy => .child (.execute thenBranch) ih ?_) fun _ => .still (still_pure _))
    fun hask => ?_
  · exact hlaw.branch_ready h (.ifThen hvalue htruthy) (by simp [Stmt.branches]) hvalue hbefore
  · cases hask with
    | ifThenCondition => exact .inl ⟨rfl, rfl⟩
    | ifThen hvalue htruthy => exact .inr ⟨_, _, hvalue, .inl ⟨htruthy, rfl, rfl⟩⟩

theorem passes_ifElse {condition : Expr} {thenBranch elseBranch : Stmt} :
    D.PassesTask H fuel (.execute (.ifElse condition thenBranch elseBranch)) m := by
  intro h
  have hcondition := hlaw.own_ready h .ifElseCondition (by simp [Stmt.expressions])
  rw [Task.run, execute]
  refine .mono (.bind (.child _ ih hcondition) fun value m₁ hvalue hbefore =>
    .ite (fun htruthy => .child (.execute thenBranch) ih ?_)
      fun hfalsy => .child (.execute elseBranch) ih ?_) fun hask => ?_
  · exact hlaw.branch_ready h (.ifElseThen hvalue htruthy) (by simp [Stmt.branches]) hvalue hbefore
  · exact hlaw.branch_ready h (.ifElseElse hvalue (by simpa using hfalsy))
      (by simp [Stmt.branches]) hvalue hbefore
  · cases hask with
    | ifElseCondition => exact .inl ⟨rfl, rfl⟩
    | ifElseThen hvalue htruthy => exact .inr ⟨_, _, hvalue, .inl ⟨htruthy, rfl, rfl⟩⟩
    | ifElseElse hvalue hfalsy =>
      exact .inr ⟨_, _, hvalue, .inr ⟨by simp [hfalsy], rfl, rfl⟩⟩

theorem passes_loop {condition : Expr} {body : Stmt} :
    D.PassesTask H fuel (.execute (.loop condition body)) m := by
  intro h
  rw [Task.run, execute]
  refine .mono (.child (.executeLoop condition body) ih (h.child .loop ⟨?_, ?_⟩ .refl))
    fun hask => ?_
  · exact hlaw.own h.allowed (by simp [Stmt.expressions])
  · exact hlaw.branch h.allowed (by simp [Stmt.branches])
  · cases hask
    exact ⟨rfl, rfl⟩

omit ih in
theorem passes_function {routine : Routine} :
    D.PassesTask H fuel (.execute (.function routine)) m := by
  intro h
  obtain ⟨hname, hfunction⟩ := hlaw.function h.event h.allowed
  have hdeclare : Evolves D.toLicence m.store ((declareFunction routine).left m).store :=
    .tail (.single (.addFunction hfunction)) (.define m.frame _ hname)
  rw [Task.run, execute]
  exact .mono (.bind (.alone hdeclare) fun _ _ _ _ => .still (still_pure _)) fun hask => by cases hask

theorem passes_ret {keyword : Token} {value : Option Expr} :
    D.PassesTask H fuel (.execute (.ret keyword value)) m := by
  intro h
  have hvalue := hlaw.option_ready h .ret rfl
  rw [Task.run, execute]
  refine .mono (.bind (.child _ ih hvalue) fun _ _ _ _ => .still (still_pure _)) fun hask => ?_
  cases hask
  exact .inl ⟨rfl, rfl⟩

omit ih in
theorem passes_classDecl {name : Token} {methods : List Routine} :
    D.PassesTask H fuel (.execute (.classDecl name methods)) m := by
  intro h
  rw [Task.run, execute]
  exact .mono (.bind (.alone (evolves_declareClass hlaw h)) fun _ _ _ _ => .still (still_pure _))
    fun hask => by cases hask

theorem passes_execute {s : Stmt} : D.PassesTask H fuel (.execute s) m := by
  cases s with
  | expression => exact passes_expression hlaw ih
  | print => exact passes_print hlaw ih
  | var => exact passes_var hlaw ih
  | block => exact passes_block hlaw ih
  | ifThen => exact passes_ifThen hlaw ih
  | ifElse => exact passes_ifElse hlaw ih
  | loop => exact passes_loop hlaw ih
  | function => exact passes_function hlaw
  | ret => exact passes_ret hlaw ih
  | classDecl => exact passes_classDecl hlaw

omit hlaw in
theorem passes_executeAll {body : List Stmt} : D.PassesTask H fuel (.executeAll body) m := by
  intro h
  cases body with
  | nil =>
    rw [Task.run, executeAll]
    exact .mono (.still (still_pure _)) fun hask => by cases hask
  | cons s rest =>
    have hfirst := h.child .first (h.allowed s List.mem_cons_self) .refl
    rw [Task.run, executeAll]
    refine .mono (.bind (N := fun flow m₁ t m' => flow = .normal ∧ t = .executeAll rest ∧ m' = m₁)
      (.child _ ih hfirst) fun flow m₁ hflow hbefore => ?_) fun hask => ?_
    · cases flow with
      | returned value =>
        exact .mono (.still (still_pure _)) fun hask => by cases hask.1
      | normal =>
        refine .mono (.child (.executeAll rest) ih ?_) And.right
        refine h.child (.next hflow) (fun s' hs' => ?_) hbefore
        rw [frame_of_ok (.execute s) hflow]
        exact h.allowed s' (List.mem_cons_of_mem _ hs')
    · cases hask with
      | first => exact .inl ⟨rfl, rfl⟩
      | next hflow => exact .inr ⟨_, _, hflow, rfl, rfl, rfl⟩

omit hlaw in
theorem passes_executeLoop {condition : Expr} {body : Stmt} :
    D.PassesTask H fuel (.executeLoop condition body) m := by
  intro h
  have hcondition := h.child .loopCondition h.allowed.1 .refl
  rw [Task.run, executeLoop]
  refine .mono (.bind (.child _ ih hcondition) fun value m₁ hvalue hbefore =>
    .ite (fun htruthy => .bind
        (N := fun flow m₂ t m' => flow = .normal ∧ t = .executeLoop condition body ∧ m' = m₂)
        (.child (.execute body) ih ?_) fun flow m₂ hflow hbefore' => ?_)
      fun _ => .still (still_pure _)) fun hask => ?_
  · refine h.child (.round hvalue htruthy) ?_ hbefore
    exact frame_of_ok (.evaluate condition) hvalue ▸ h.allowed.2
  · cases flow with
    | returned value =>
      exact .mono (.still (still_pure _)) fun hask => by cases hask.1
    | normal =>
      have hframe := (frame_of_ok (.execute body) hflow).trans
        (frame_of_ok (.evaluate condition) hvalue)
      refine .mono (.child (.executeLoop condition body) ih ?_) And.right
      refine h.child (.again hvalue htruthy hflow) ?_ (hbefore.trans hbefore')
      exact hframe ▸ h.allowed
  · cases hask with
    | loopCondition => exact .inl ⟨rfl, rfl⟩
    | round hvalue htruthy =>
      exact .inr ⟨_, _, hvalue, .inl ⟨htruthy, .inl ⟨rfl, rfl⟩⟩⟩
    | again hvalue htruthy hflow =>
      exact .inr ⟨_, _, hvalue, .inl ⟨htruthy, .inr ⟨_, _, hflow, rfl, rfl, rfl⟩⟩⟩

end Statements

section Calls

variable (hlaw : D.Lawful H) (ih : D.Kept H fuel)

/-- What is called was in the store, so it is granted. -/
theorem allows_callee {frame : Nat} {value : Value} {callee : Store.Callee} {paren : Token}
    {arguments : List Value} (h : Granted D.toLicence m.store)
    (hcallee : m.store.callee? value = some callee) :
    D.Allows frame (.enter callee paren arguments) := by
  cases callee with
  | host => trivial
  | function closure =>
    cases value with
    | function id =>
      simp only [Store.callee?, Option.map_eq_some_iff] at hcallee
      obtain ⟨found, hfound, heq⟩ := hcallee
      cases heq
      exact h.function hfound
    | host => simp [Store.callee?] at hcallee
    | classRef => simp [Store.callee?] at hcallee
    | nil | bool | number | text | object => cases hcallee
  | classRef classId info =>
    cases value with
    | classRef id =>
      simp only [Store.callee?, Option.map_eq_some_iff] at hcallee
      obtain ⟨found, hfound, heq⟩ := hcallee
      cases heq
      exact fun name method => h.method hfound
    | host => simp [Store.callee?] at hcallee
    | function => simp [Store.callee?] at hcallee
    | nil | bool | number | text | object => cases hcallee

include ih

theorem passes_call_value {value : Value} {paren : Token} {arguments : List Value} :
    D.PassesTask H fuel (.call value paren arguments) m := by
  intro h
  rw [Task.run, ScriptLang.call]
  refine .get ?_
  cases hcallee : m.store.callee? value with
  | none =>
    refine .mono (.still (still_raise _ _)) fun hask => ?_
    cases hask with
    | enter hcallee' => simp [hcallee] at hcallee'
  | some callee =>
    refine .mono (.ite (fun _ => .still (still_raise _ _)) fun harity =>
      .get (.ite (fun _ => .still (still_raise _ _)) fun hdepth =>
        .asCall (.child (.enter callee paren arguments) ih ?_))) fun hask => ?_
    · exact h.child (.enter hcallee (by simpa using harity) hdepth)
        (allows_callee h.granted hcallee) .refl
    · cases hask with
      | enter hcallee' harity hdepth =>
        cases hcallee.symm.trans hcallee'
        exact .inr ⟨by simp [harity], .inr ⟨hdepth, rfl, rfl⟩⟩

omit ih in
theorem passes_enter_host {provided : HostFunction} {paren : Token} {arguments : List Value} :
    D.PassesTask H fuel (.enter (.host provided) paren arguments) m := by
  intro _
  rw [Task.run, ScriptLang.enter]
  exact .mono (.still (still_callHost _ _ _)) fun hask => by cases hask

theorem passes_enter_function {closure : Closure} {paren : Token} {arguments : List Value} :
    D.PassesTask H fuel (.enter (.function closure) paren arguments) m := by
  intro h
  rw [Task.run, ScriptLang.enter]
  refine .mono (.child (.invoke closure arguments) ih (h.child .function h.allowed .refl))
    fun hask => ?_
  cases hask
  exact ⟨rfl, rfl⟩

include hlaw

theorem passes_enter_class {classId : Nat} {info : ClassInfo} {paren : Token}
    {arguments : List Value} :
    D.PassesTask H fuel (.enter (.classRef classId info) paren arguments) m := by
  intro h
  have hobject : Evolves D.toLicence m.store (m.store.addObject classId).2 :=
    .single (.addObject classId)
  rw [Task.run, ScriptLang.enter]
  refine .mono (.bind (.alone hobject) (N := fun object m₁ t m' => ∃ method,
      info.methods.get? initializerName = some method ∧
      t = .invoke (m₁.store.bindMethod method object).1 arguments ∧
      m' = { m₁ with store := (m₁.store.bindMethod method object).2 })
    fun object m₁ hrun hbefore => ?_) fun hask => ?_
  · cases hinit : info.methods.get? initializerName with
    | none =>
      refine .mono (.still (still_pure _)) fun hnone => ?_
      obtain ⟨method, hmethod, -⟩ := hnone
      cases hmethod
    | some method =>
      cases hrun
      have hbind : Evolves D.toLicence (m.store.addObject classId).2
          ((m.store.addObject classId).2.bindMethod method m.store.objects.size).2 :=
        .single (.bindMethod method _)
      have hinvoke := h.child (.classInitializer hinit rfl rfl)
        (hlaw.constructed h.event hinit (h.allowed _ _ hinit)) (hobject.trans hbind)
      refine .mono (.bind (.alone hbind) fun bound m₂ hrun' _ =>
        .bind (.child (.invoke bound arguments) ih ?_) fun _ _ _ _ => .still (still_pure _)) ?_
      · cases hrun'
        exact hinvoke
      · rintro t m' ⟨method', hmethod', rfl, rfl⟩
        cases hmethod'
        exact .inr ⟨_, _, rfl, .inl ⟨rfl, rfl⟩⟩
  · cases hask with
    | classInitializer hinit hobject hbound =>
      cases hobject
      cases hbound
      exact .inr ⟨_, _, rfl, _, hinit, rfl, rfl⟩

theorem passes_invoke {closure : Closure} {arguments : List Value} :
    D.PassesTask H fuel (.invoke closure arguments) m := by
  intro h
  have hframe : Evolves D.toLicence m.store (m.forBody closure arguments).store := by
    refine .head (.addFrame closure.frame) (Evolves.defineAll fun pair hpair => ?_)
    obtain ⟨t, ht, hname⟩ := List.mem_map.mp (List.of_mem_zip hpair).1
    exact hname ▸ hlaw.parameter h.allowed ht
  have hbody := h.child .body (fun _ hs => hlaw.body h.event h.allowed hs) hframe
  rw [Task.run, ScriptLang.invoke]
  refine .mono (.bind (.alone hframe) fun frame m₁ hrun _ =>
    .bind (.inFrame (.child (.executeAll closure.routine.body) ih ?_))
      fun flow _ _ _ => .still (still_resultOfCall closure flow)) fun hask => ?_
  · cases hrun
    exact hbody
  · cases hask
    exact .inr ⟨_, _, rfl, .inl ⟨rfl, rfl⟩⟩

end Calls

section Runs

variable (hlaw : D.Lawful H)
include hlaw

theorem passes (ih : D.Kept H fuel) (task : Task) : D.PassesTask H fuel task m := by
  cases task with
  | execute => exact passes_execute hlaw ih
  | executeAll => exact passes_executeAll ih
  | executeLoop => exact passes_executeLoop ih
  | evaluate => exact passes_evaluate hlaw ih
  | evaluateOption => exact passes_evaluateOption ih
  | evaluateAll => exact passes_evaluateAll ih
  | call => exact passes_call_value ih
  | enter callee paren arguments =>
    cases callee with
    | host => exact passes_enter_host
    | function => exact passes_enter_function ih
    | classRef => exact passes_enter_class hlaw ih
  | invoke => exact passes_invoke hlaw ih

/-- Under a lawful discipline, a run changes the store in granted ways only. -/
theorem kept (fuel : Nat) : D.Kept H fuel := by
  induction fuel with
  | zero =>
    intro task m _
    rw [Task.run_zero]
    exact .refl
  | succ fuel ih => exact fun h => (passes hlaw ih _ h).run

/-- A task that is asked for is done on a store that has yet to become the last one. -/
theorem evolves_asked {fuel : Nat} {task task' : Task} {m m' : Machine}
    (h : D.Ready H (fuel + 1) task m) (hask : Asks fuel task m task' m') :
    Evolves D.toLicence m'.store ((task.run (fuel + 1)).left m).store := by
  have hbetween := (passes hlaw (kept hlaw fuel) _ h).between hask
  exact (kept hlaw fuel hbetween.ready).trans hbetween.after

/-- What is begun during a run is ready, on a store between the first one and the last. -/
theorem between {fuel rest : Nat} {task task' : Task} {m m' : Machine}
    (h : D.Ready H fuel task m) (hundertakes : Undertakes fuel task m rest task' m') :
    D.Between H rest m.store task' m' ((task.run fuel).left m).store := by
  induction hundertakes with
  | here => exact ⟨h, .refl, .refl⟩
  | step hask _ ih =>
    have houter := (passes hlaw (kept hlaw _) _ h).between hask
    have hinner := ih houter.ready
    exact ⟨hinner.ready, houter.before.trans hinner.before, hinner.after.trans houter.after⟩

end Runs

end Discipline

/-! ## 6. Scripts -/

/-- Running the statements of a script, the evaluator begins a task with the fuel that is left. -/
inductive ScriptUndertakes (fuel : Nat) : List Stmt → Machine → Events where
  | now {s more m rest task m'} : Undertakes fuel (.execute s) m rest task m' →
      ScriptUndertakes fuel (s :: more) m rest task m'
  | later {s more m flow m₁ rest task m'} : execute fuel s m = .ok flow m₁ →
      ScriptUndertakes fuel more m₁ rest task m' → ScriptUndertakes fuel (s :: more) m rest task m'

/-- The statements of a script are allowed, on a store of granted entries, and what is begun
while they run is among the events. -/
structure Discipline.ScriptReady (D : Discipline) (H : Events) (fuel : Nat) (statements : List Stmt)
    (m : Machine) : Prop where
  allowed : ∀ s ∈ statements, D.statement m.frame s
  granted : Granted D.toLicence m.store
  events : ∀ {rest task m'}, ScriptUndertakes fuel statements m rest task m' → H rest task m'

section Scripts

variable {D : Discipline} {H : Events} {fuel rest : Nat} {m m' : Machine} {task task' : Task}
variable {statements : List Stmt}

theorem Visits.undertakes (h : Visits fuel task m task' m') :
    ∃ rest, Undertakes fuel task m rest task' m' := by
  induction h with
  | here => exact ⟨_, .here⟩
  | step hask _ ih => exact ih.imp fun _ hrest => .step hask hrest

theorem Undertakes.visits (h : Undertakes fuel task m rest task' m') :
    Visits fuel task m task' m' := by
  induction h with
  | here => exact .here
  | step hask _ ih => exact .step hask ih

/-- What is begun by what is begun is begun. -/
theorem Undertakes.trans {last : Nat} {task'' : Task} {m'' : Machine}
    (h : Undertakes fuel task m rest task' m') (hmore : Undertakes rest task' m' last task'' m'') :
    Undertakes fuel task m last task'' m'' := by
  induction h with
  | here => exact hmore
  | step hask _ ih => exact .step hask (ih hmore)

theorem ScriptUndertakes.trans {last : Nat} (h : ScriptUndertakes fuel statements m rest task m')
    {task'' : Task} {m'' : Machine} (hmore : Undertakes rest task m' last task'' m'') :
    ScriptUndertakes fuel statements m last task'' m'' := by
  induction h with
  | now hundertakes => exact .now (hundertakes.trans hmore)
  | later hdone _ ih => exact .later hdone (ih hmore)

theorem ScriptVisits.undertakes (h : ScriptVisits fuel statements m task m') :
    ∃ rest, ScriptUndertakes fuel statements m rest task m' := by
  induction h with
  | now hvisits => exact hvisits.undertakes.imp fun _ => .now
  | later hdone _ ih => exact ih.imp fun _ => .later hdone

theorem ScriptUndertakes.visits (h : ScriptUndertakes fuel statements m rest task m') :
    ScriptVisits fuel statements m task m' := by
  induction h with
  | now hundertakes => exact .now hundertakes.visits
  | later hdone _ ih => exact .later hdone ih

/-- Flushing the output does not change the store. -/
theorem left_interpret_store (fuel : Nat) (statements : List Stmt) (m : Machine) :
    ((interpret fuel statements).left m).store
      = ((executeScript fuel statements).left m).store := by
  have hflush : ∀ m, (flush.left m).store = m.store := still_flush
  unfold Exec.left interpret
  unfold Exec.left at hflush
  cases executeScript fuel statements m with
  | ok a m₁ =>
    exact hflush m₁
  | error halt m₁ =>
    cases halt with
    | outOfFuel => rfl
    | fault found =>
      have hm₁ := hflush m₁
      dsimp only
      cases hrun : flush m₁ <;> rw [hrun] at hm₁ <;> exact hm₁

namespace Discipline

theorem ScriptReady.head {s : Stmt} {more : List Stmt} (h : D.ScriptReady H fuel (s :: more) m) :
    D.Ready H fuel (.execute s) m :=
  ⟨h.allowed s List.mem_cons_self, h.granted, fun hrest => h.events (.now hrest)⟩

variable (hlaw : D.Lawful H)
include hlaw

theorem ScriptReady.tail {s : Stmt} {more : List Stmt} {flow : Flow} {m₁ : Machine}
    (h : D.ScriptReady H fuel (s :: more) m) (hdone : execute fuel s m = .ok flow m₁) :
    Evolves D.toLicence m.store m₁.store ∧ D.ScriptReady H fuel more m₁ := by
  have hevolves := kept hlaw fuel h.head
  rw [Exec.left_of_ok (x := Task.run fuel (.execute s)) hdone] at hevolves
  refine ⟨hevolves, fun s' hs' => ?_, hevolves.granted h.granted, fun hrest =>
    h.events (.later hdone hrest)⟩
  rw [frame_of_ok (.execute s) hdone]
  exact h.allowed s' (List.mem_cons_of_mem _ hs')

theorem evolves_executeScript (h : D.ScriptReady H fuel statements m) :
    Evolves D.toLicence m.store ((executeScript fuel statements).left m).store := by
  induction statements generalizing m with
  | nil => exact .refl
  | cons s more ih =>
    rw [executeScript]
    cases hdone : execute fuel s m with
    | ok flow m₁ =>
      obtain ⟨hfirst, hmore⟩ := h.tail hlaw hdone
      rw [Exec.left_bind_of_ok hdone]
      exact hfirst.trans (ih hmore)
    | error halt m₁ =>
      have hevolves := kept hlaw fuel h.head
      rw [Exec.left_bind_of_error hdone]
      rwa [Task.run, Exec.left, hdone] at hevolves

/-- What is begun while a script runs is ready, on a store between the first one and the last. -/
theorem script_between (h : D.ScriptReady H fuel statements m)
    (hundertakes : ScriptUndertakes fuel statements m rest task m') :
    D.Between H rest m.store task m' ((executeScript fuel statements).left m).store := by
  induction hundertakes with
  | @now s more m rest task m' hundertakes =>
    have hbetween := between hlaw h.head hundertakes
    refine ⟨hbetween.ready, hbetween.before, hbetween.after.trans ?_⟩
    rw [executeScript, Task.run]
    cases hdone : execute fuel s m with
    | ok flow m₁ =>
      rw [Exec.left_bind_of_ok hdone, Exec.left_of_ok hdone]
      exact evolves_executeScript hlaw (h.tail hlaw hdone).2
    | error halt m₁ =>
      rw [Exec.left_bind_of_error hdone, Exec.left, hdone]
  | later hdone _ ih =>
    obtain ⟨hfirst, hmore⟩ := h.tail hlaw hdone
    have hbetween := ih hmore
    rw [executeScript, Exec.left_bind_of_ok hdone]
    exact ⟨hbetween.ready, hfirst.trans hbetween.before, hbetween.after⟩

end Discipline

end Scripts

/-- The store of a new machine has no functions and no classes. -/
theorem Machine.granted_start (L : Store.Licence) (sink : Sink) (clock : Nat → Float) :
    Granted L (Machine.start sink clock).store := by
  refine ⟨fun {id closure} hid => ?_, fun {id info name method} hid _ => ?_⟩
  · simp [Machine.start, Store.define, Store.addHost, Store.addFrame, Store.empty] at hid
  · simp [Machine.start, Store.define, Store.addHost, Store.addFrame, Store.empty] at hid

/-! ## 7. All runs -/

/-- The discipline that allows everything. -/
def Discipline.free : Discipline :=
  ⟨⟨fun _ => True, fun _ => True, fun _ _ _ => True⟩, fun _ _ => True, fun _ _ => True⟩

section AllRuns

variable {fuel rest : Nat} {task task' : Task} {m m' : Machine} {statements : List Stmt}

theorem Discipline.free_lawful (H : Events) : Discipline.free.Lawful H where
  operand _ _ := trivial
  own _ _ := trivial
  branch _ _ := trivial
  block _ _ _ := trivial
  body _ _ _ := trivial
  declared _ := trivial
  assigned _ := trivial
  parameter _ _ := trivial
  function _ _ := ⟨trivial, trivial⟩
  classDecl _ _ := ⟨trivial, fun _ _ => trivial⟩
  accessed _ _ _ _ := trivial
  constructed _ _ _ := trivial

theorem Discipline.granted_free (s : Store) : Granted Discipline.free.toLicence s :=
  ⟨fun _ => trivial, fun _ _ => trivial⟩

theorem Discipline.ready_free (fuel : Nat) (task : Task) (m : Machine) :
    Discipline.free.Ready (fun _ _ _ => True) fuel task m := by
  refine ⟨?_, Discipline.granted_free m.store, fun _ => trivial⟩
  cases task with
  | execute | evaluate | call | invoke => trivial
  | executeAll | evaluateOption | evaluateAll => exact fun _ _ => trivial
  | executeLoop => exact ⟨trivial, trivial⟩
  | enter callee =>
    cases callee with
    | host | function => trivial
    | classRef => exact fun _ _ _ => trivial

/-- Whatever is done, on whatever machine and however it ends, the store only grows. -/
theorem grows_task (fuel : Nat) (task : Task) (m : Machine) :
    m.store.Grows ((task.run fuel).left m).store :=
  (Discipline.kept (Discipline.free_lawful _) fuel (Discipline.ready_free fuel task m)).grows

theorem Undertakes.grows (h : Undertakes fuel task m rest task' m') : m.store.Grows m'.store ∧
    ((task'.run rest).left m').store.Grows ((task.run fuel).left m).store := by
  have hbetween :=
    Discipline.between (Discipline.free_lawful _) (Discipline.ready_free fuel task m) h
  exact ⟨hbetween.before.grows, hbetween.after.grows⟩

theorem Discipline.scriptReady_free (fuel : Nat) (statements : List Stmt) (m : Machine) :
    Discipline.free.ScriptReady (fun _ _ _ => True) fuel statements m :=
  ⟨fun _ _ => trivial, Discipline.granted_free m.store, fun _ => trivial⟩

theorem grows_interpret (fuel : Nat) (statements : List Stmt) (m : Machine) :
    m.store.Grows ((interpret fuel statements).left m).store := by
  rw [left_interpret_store]
  exact (Discipline.evolves_executeScript (Discipline.free_lawful _)
    (Discipline.scriptReady_free fuel statements m)).grows

theorem ScriptUndertakes.grows (h : ScriptUndertakes fuel statements m rest task m') :
    m.store.Grows m'.store ∧
      ((task.run rest).left m').store.Grows ((interpret fuel statements).left m).store := by
  have hbetween := Discipline.script_between (Discipline.free_lawful _)
    (Discipline.scriptReady_free fuel statements m) h
  rw [left_interpret_store]
  exact ⟨hbetween.before.grows, hbetween.after.grows⟩

/-- The new frame for a body is inside the frame of the closure. -/
theorem enclosing?_forBody (m : Machine) (closure : Closure) (arguments : List Value) :
    (m.forBody closure arguments).store.enclosing? (m.forBody closure arguments).frame =
      some closure.frame := by
  have hdefined : (m.store.addFrame (some closure.frame)).2.Grows
      (m.forBody closure arguments).store :=
    (Store.Evolves.defineAll (L := Discipline.free.toLicence) fun _ _ => trivial).grows
  change (m.forBody closure arguments).store.enclosing? m.store.frames.size = _
  rw [hdefined.enclosing (by simp), Store.enclosing?_addFrame, if_pos rfl]

end AllRuns

end ScriptLang
