/-
ScriptLang.Proofs.Binding.Placed — statements among scopes.

`Placed P S s` says that the statement `s` is in order among the open scopes
`S`: no scope declares a name twice, no branch and no loop body is itself a
declaration, and `P` holds of every mention of a name together with the scopes
that are open at this mention. It is the static meaning of scope, without the
table, the faults and the state of the walk in `ScriptLang.Binding`, and the
parameter `P` is whatever a use of it wants to know about mentions.

A declaration changes the innermost scope for what comes after it
(`scopesAfter`). A variable is in scope in its own initializer, where it
cannot be read yet; a function is in scope in its own body and a class in its
own methods.
-/
import ScriptLang.Binding
import ScriptLang.Tree.Mention

namespace ScriptLang

/-! ## 1. Maps from names -/

namespace NameMap

variable {α : Type}

theorem contains_insert (m : NameMap α) (name other : String) (value : α) :
    (m.insert name value).contains other = (decide (other = name) || m.contains other) := by
  rw [contains, get?_insert]
  by_cases h : other = name
  · simp [h]
  · simp [h, contains]

@[simp] theorem contains_empty (name : String) : (empty : NameMap α).contains name = false := rfl

/-- The second of two insertions under a name counts. -/
@[simp] theorem insert_insert (m : NameMap α) (name : String) (value value' : α) :
    (m.insert name value).insert name value' = m.insert name value' := by
  have hentries : ∀ entries : List (String × α),
      insertEntry name value' (insertEntry name value entries) = insertEntry name value' entries := by
    intro entries
    induction entries with
    | nil => simp [insertEntry]
    | cons entry rest ih =>
      by_cases h : name = entry.1
      · simp [insertEntry, h]
      · simp [insertEntry, h, ih]
  simp only [insert, hentries]

end NameMap

namespace Binding

/-! ## 2. Scopes -/

/-- The scope of the instance in the methods of a class. -/
def thisScope : Scope := NameMap.empty.insert selfName true

/-- The scopes after a name was declared. At the top level declarations are global. -/
def declared (S : List Scope) (name : String) (ready : Bool) : List Scope :=
  match S with
  | [] => []
  | scope :: outer => scope.insert name ready :: outer

/-- The innermost scope does not declare a name yet. -/
def Fresh (S : List Scope) (name : String) : Prop :=
  ∀ scope ∈ S.head?, scope.contains name = false

/-- The scope of the parameters of a routine. -/
def parameterScope (parameters : List Token) : Scope :=
  parameters.foldl (fun scope parameter => scope.insert parameter.lexeme true) .empty

/-- The name that a statement declares. -/
def declaredName? : Stmt → Option String
  | .var name _ => some name.lexeme
  | .function routine => some routine.name.lexeme
  | .classDecl name _ => some name.lexeme
  | _ => none

/-- The scopes after a statement. -/
def scopesAfter (S : List Scope) (s : Stmt) : List Scope :=
  match declaredName? s with
  | some name => declared S name true
  | none => S

/-- At the top level no scope is opened. -/
theorem scopesAfter_nil (s : Stmt) : scopesAfter [] s = [] := by
  unfold scopesAfter
  cases declaredName? s <;> rfl

/-- A name of the parameter scope is one of the parameters. -/
theorem contains_parameterScope (parameters : List Token) (name : String) :
    (parameterScope parameters).contains name = decide (name ∈ parameters.map Token.lexeme) := by
  suffices h : ∀ scope : Scope,
      (parameters.foldl (fun scope t => scope.insert t.lexeme true) scope).contains name
        = (scope.contains name || decide (name ∈ parameters.map Token.lexeme)) by
    simpa [parameterScope] using h .empty
  induction parameters with
  | nil => simp
  | cons t rest ih =>
    intro scope
    rw [List.foldl_cons, ih, NameMap.contains_insert]
    by_cases hname : name = t.lexeme <;> simp [hname]

/-! ## 3. Placed statements -/

section Placed

variable (P : List Scope → Mention → Prop)

mutual
/-- A statement is in order among the open scopes, and `P` holds of its mentions. -/
inductive Placed : List Scope → Stmt → Prop where
  | expression {S value} : (∀ m ∈ value.mentions, P S m) → Placed S (.expression value)
  | print {S value} : (∀ m ∈ value.mentions, P S m) → Placed S (.print value)
  | var {S name initializer} : Fresh S name.lexeme →
      (∀ m ∈ Expr.mentionsOption initializer, P (declared S name.lexeme false) m) →
      Placed S (.var name initializer)
  | block {S body} : PlacedAll (.empty :: S) body → Placed S (.block body)
  | ifThen {S condition thenBranch} : (∀ m ∈ condition.mentions, P S m) →
      declaredName? thenBranch = none → Placed S thenBranch → Placed S (.ifThen condition thenBranch)
  | ifElse {S condition thenBranch elseBranch} : (∀ m ∈ condition.mentions, P S m) →
      declaredName? thenBranch = none → Placed S thenBranch →
      declaredName? elseBranch = none → Placed S elseBranch →
      Placed S (.ifElse condition thenBranch elseBranch)
  | loop {S condition body} : (∀ m ∈ condition.mentions, P S m) →
      declaredName? body = none → Placed S body → Placed S (.loop condition body)
  | function {S routine} : Fresh S routine.name.lexeme →
      PlacedRoutine (declared S routine.name.lexeme true) routine → Placed S (.function routine)
  | ret {S keyword value} : (∀ m ∈ Expr.mentionsOption value, P S m) → Placed S (.ret keyword value)
  | classDecl {S name methods} : Fresh S name.lexeme →
      PlacedMethods (thisScope :: declared S name.lexeme true) methods →
      Placed S (.classDecl name methods)

/-- Statements in a row, each among the scopes that the ones before it leave. -/
inductive PlacedAll : List Scope → List Stmt → Prop where
  | nil {S} : PlacedAll S []
  | cons {S s rest} : Placed S s → PlacedAll (scopesAfter S s) rest → PlacedAll S (s :: rest)

/-- A routine declared among the open scopes. -/
inductive PlacedRoutine : List Scope → Routine → Prop where
  | mk {S name parameters body} : (parameters.map Token.lexeme).Nodup →
      PlacedAll (parameterScope parameters :: S) body → PlacedRoutine S ⟨name, parameters, body⟩

/-- The methods of a class. -/
inductive PlacedMethods : List Scope → List Routine → Prop where
  | nil {S} : PlacedMethods S []
  | cons {S method rest} : PlacedRoutine S method → PlacedMethods S rest →
      PlacedMethods S (method :: rest)
end

end Placed

variable {P Q : List Scope → Mention → Prop}

theorem PlacedRoutine.nodup {S : List Scope} {routine : Routine}
    (h : PlacedRoutine P S routine) : (routine.parameters.map Token.lexeme).Nodup := by
  cases h with
  | mk hnodup _ => exact hnodup

theorem PlacedRoutine.body {S : List Scope} {routine : Routine} (h : PlacedRoutine P S routine) :
    PlacedAll P (parameterScope routine.parameters :: S) routine.body := by
  cases h with
  | mk _ hbody => exact hbody

theorem PlacedMethods.routine {S : List Scope} {methods : List Routine} {method : Routine} :
    PlacedMethods P S methods → method ∈ methods → PlacedRoutine P S method
  | .cons h hrest, hmem => by
      rcases List.mem_cons.mp hmem with rfl | hmem
      · exact h
      · exact PlacedMethods.routine hrest hmem

mutual
/-- What holds of the mentions that occur may be replaced by what follows from it. -/
theorem Placed.mono {S : List Scope} {s : Stmt} :
    Placed P S s → (∀ S, ∀ m ∈ s.mentions, P S m → Q S m) → Placed Q S s
  | .expression h, himp => .expression fun m hm => himp _ m hm (h m hm)
  | .print h, himp => .print fun m hm => himp _ m hm (h m hm)
  | .var hfresh h, himp => .var hfresh fun m hm => himp _ m hm (h m hm)
  | .block h, himp => .block (h.mono himp)
  | .ifThen h hthen hbranch, himp =>
    .ifThen (fun m hm => himp _ m (List.mem_append_left _ hm) (h m hm)) hthen
      (hbranch.mono fun S m hm => himp S m (List.mem_append_right _ hm))
  | .ifElse h hthen hbranch helse hbranch', himp =>
    .ifElse (fun m hm => himp _ m (List.mem_append_left _ (List.mem_append_left _ hm)) (h m hm))
      hthen
      (hbranch.mono fun S m hm => himp S m (List.mem_append_left _ (List.mem_append_right _ hm)))
      helse (hbranch'.mono fun S m hm => himp S m (List.mem_append_right _ hm))
  | .loop h hbody hplaced, himp =>
    .loop (fun m hm => himp _ m (List.mem_append_left _ hm) (h m hm)) hbody
      (hplaced.mono fun S m hm => himp S m (List.mem_append_right _ hm))
  | .function hfresh h, himp => .function hfresh (h.mono himp)
  | .ret h, himp => .ret fun m hm => himp _ m hm (h m hm)
  | .classDecl hfresh h, himp => .classDecl hfresh (h.mono himp)

theorem PlacedAll.mono {S : List Scope} {body : List Stmt} :
    PlacedAll P S body → (∀ S, ∀ m ∈ Stmt.mentionsAll body, P S m → Q S m) → PlacedAll Q S body
  | .nil, _ => .nil
  | .cons h hrest, himp =>
    .cons (h.mono fun S m hm => himp S m (List.mem_append_left _ hm))
      (hrest.mono fun S m hm => himp S m (List.mem_append_right _ hm))

theorem PlacedRoutine.mono {S : List Scope} {routine : Routine} :
    PlacedRoutine P S routine → (∀ S, ∀ m ∈ routine.mentions, P S m → Q S m) →
    PlacedRoutine Q S routine
  | .mk hnodup h, himp => .mk hnodup (h.mono himp)

theorem PlacedMethods.mono {S : List Scope} {methods : List Routine} :
    PlacedMethods P S methods → (∀ S, ∀ m ∈ Routine.mentionsAll methods, P S m → Q S m) →
    PlacedMethods Q S methods
  | .nil, _ => .nil
  | .cons h hrest, himp =>
    .cons (h.mono fun S m hm => himp S m (List.mem_append_left _ hm))
      (hrest.mono fun S m hm => himp S m (List.mem_append_right _ hm))
end

end Binding

end ScriptLang
