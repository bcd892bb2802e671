/-
ScriptLang.Proofs.Binding.Respelled — the same script in another spelling.

Two scripts that differ only in the names of local variables are walked side by
side. What has to be remembered are the variables in force, each with its two
spellings (`Spellings`): a name in the one script and a name in the other mean
the same if both lead to the same variable, or if they lead to none and are
equal (`Linked`). `RespelledAll` says that two scripts are the same up to such
spellings. Names that can be printed, of functions, classes and properties, are
the same in both.

Binding looks at names only to find variables. So the two walks record the same
distances and find equally many faults (`resolve_respelled`).

Identities are compared as well, by a relation that is left open: they are the
same where only names differ, and different where a script is read a second
time (`RespelledAll.relabel`).
-/
import ScriptLang.Proofs.Binding.Walk
import ScriptLang.Proofs.Tree.Relabel

namespace ScriptLang.Binding

/-! ## 1. Spellings -/

/-- The local variables in force: for each open scope, innermost first, the two spellings of its
variables, last declared first. -/
abbrev Spellings := List (List (String × String))

/-- Two names mean the same variable of a scope, or none of its variables and then something else
holds. -/
def Paired (otherwise : Prop) (name name' : String) : List (String × String) → Prop
  | [] => otherwise
  | (x, x') :: rest =>
    name = x ∧ name' = x' ∨ name ≠ x ∧ name' ≠ x' ∧ Paired otherwise name name' rest

/-- Two names mean the same variable. -/
def Linked : Spellings → String → String → Prop
  | [], name, name' => name = name'
  | scope :: outer, name, name' => Paired (Linked outer name name') name name' scope

/-- The variables in force after a declaration. At the top level variables are global. -/
def declareBoth (Γ : Spellings) (name name' : String) : Spellings :=
  match Γ with
  | [] => []
  | scope :: outer => ((name, name') :: scope) :: outer

/-- Two names may be declared side by side: either both are new in the innermost scope, or both
mean the same variable of it. Global variables have one spelling. -/
def Declarable : Spellings → String → String → Prop
  | [], name, name' => name = name'
  | scope :: _, name, name' => Paired True name name' scope

section Spellings

variable {R R' : Prop} {name name' : String} {scope : List (String × String)}

/-- Two names are found together in a scope, or neither is in it. -/
theorem Paired.sorted (h : Paired R name name' scope) :
    (name ∈ scope.map Prod.fst ∧ name' ∈ scope.map Prod.snd ∧ Paired True name name' scope) ∨
      (name ∉ scope.map Prod.fst ∧ name' ∉ scope.map Prod.snd ∧ R) := by
  induction scope with
  | nil => exact .inr ⟨by simp, by simp, h⟩
  | cons pair rest ih =>
    rcases h with ⟨rfl, rfl⟩ | ⟨hne, hne', h⟩
    · exact .inl ⟨by simp, by simp, .inl ⟨rfl, rfl⟩⟩
    · rcases ih h with ⟨hmem, hmem', hpaired⟩ | ⟨hnot, hnot', hR⟩
      · exact .inl ⟨List.mem_cons_of_mem _ hmem, List.mem_cons_of_mem _ hmem',
          .inr ⟨hne, hne', hpaired⟩⟩
      · exact .inr ⟨by simp [hne, hnot], by simp [hne', hnot'], hR⟩

end Spellings

/-! ## 2. Trees in two spellings -/

section Trees

variable (M : Mention → Mention → Prop)

mutual
/-- Two expressions are the same up to mentions that are related, and identities. -/
inductive RespelledExpr : Expr → Expr → Prop where
  | literal {id id' value} : RespelledExpr (.literal id value) (.literal id' value)
  | group {id id' inner inner'} : RespelledExpr inner inner' →
      RespelledExpr (.group id inner) (.group id' inner')
  | unary {id id' operator operand operand'} : RespelledExpr operand operand' →
      RespelledExpr (.unary id operator operand) (.unary id' operator operand')
  | binary {id id' left left' operator right right'} : RespelledExpr left left' →
      RespelledExpr right right' →
      RespelledExpr (.binary id left operator right) (.binary id' left' operator right')
  | logical {id id' left left' operator right right'} : RespelledExpr left left' →
      RespelledExpr right right' →
      RespelledExpr (.logical id left operator right) (.logical id' left' operator right')
  | read {id id' name name'} : M ⟨.read, id, name⟩ ⟨.read, id', name'⟩ →
      RespelledExpr (.read id name) (.read id' name')
  | assign {id id' name name' value value'} : M ⟨.assign, id, name⟩ ⟨.assign, id', name'⟩ →
      RespelledExpr value value' → RespelledExpr (.assign id name value) (.assign id' name' value')
  | call {id id' callee callee' paren arguments arguments'} : RespelledExpr callee callee' →
      RespelledExprs arguments arguments' →
      RespelledExpr (.call id callee paren arguments) (.call id' callee' paren arguments')
  | property {id id' object object' name} : RespelledExpr object object' →
      RespelledExpr (.property id object name) (.property id' object' name)
  | setProperty {id id' object object' name value value'} : RespelledExpr object object' →
      RespelledExpr value value' →
      RespelledExpr (.setProperty id object name value) (.setProperty id' object' name value')
  | self {id id' keyword keyword'} : M ⟨.self, id, keyword⟩ ⟨.self, id', keyword'⟩ →
      RespelledExpr (.self id keyword) (.self id' keyword')

/-- Expressions in a row. -/
inductive RespelledExprs : List Expr → List Expr → Prop where
  | nil : RespelledExprs [] []
  | cons {e e' rest rest'} : RespelledExpr e e' → RespelledExprs rest rest' →
      RespelledExprs (e :: rest) (e' :: rest')
end

end Trees

section Statements

variable (I : Nat → Nat → Prop)

/-- Two mentions mean the same variable, on the same line, with related identities. -/
structure SameVariable (Γ : Spellings) (m m' : Mention) : Prop where
  id : I m.id m'.id
  line : m'.token.line = m.token.line
  linked : Linked Γ m.token.lexeme m'.token.lexeme

/-- Two mentions mean the same variable in the initializer of a variable with two spellings, and
do not read this one. -/
structure InInitializer (Γ : Spellings) (name name' : String) (m m' : Mention) : Prop
    extends SameVariable I (declareBoth Γ name name') m m' where
  unread : m.role = .assign ∨ m'.token.lexeme = m.token.lexeme ∨ m.token.lexeme ≠ name

/-- Two lists of parameters, declared in a scope that becomes another one. -/
inductive RespelledParameters : List (String × String) → List Token → List Token →
    List (String × String) → Prop where
  | nil {scope} : RespelledParameters scope [] [] scope
  | cons {scope t t' rest rest' final} : Paired True t.lexeme t'.lexeme scope →
      RespelledParameters ((t.lexeme, t'.lexeme) :: scope) rest rest' final →
      RespelledParameters scope (t :: rest) (t' :: rest') final

mutual
/-- Two statements are the same up to spelling, with the variables in force before and after. -/
inductive Respelled : Spellings → Stmt → Stmt → Spellings → Prop where
  | expression {Γ value value'} : RespelledExpr (SameVariable I Γ) value value' →
      Respelled Γ (.expression value) (.expression value') Γ
  | print {Γ value value'} : RespelledExpr (SameVariable I Γ) value value' →
      Respelled Γ (.print value) (.print value') Γ
  | var {Γ name name' initializer initializer'} : Declarable Γ name.lexeme name'.lexeme →
      Option.Rel (RespelledExpr (InInitializer I Γ name.lexeme name'.lexeme)) initializer
        initializer' →
      Respelled Γ (.var name initializer) (.var name' initializer')
        (declareBoth Γ name.lexeme name'.lexeme)
  | block {Γ body body'} : RespelledAll ([] :: Γ) body body' →
      Respelled Γ (.block body) (.block body') Γ
  | ifThen {Γ condition condition' thenBranch thenBranch'} :
      RespelledExpr (SameVariable I Γ) condition condition' →
      declaredName? thenBranch' = none → Respelled Γ thenBranch thenBranch' Γ →
      Respelled Γ (.ifThen condition thenBranch) (.ifThen condition' thenBranch') Γ
  | ifElse {Γ condition condition' thenBranch thenBranch' elseBranch elseBranch'} :
      RespelledExpr (SameVariable I Γ) condition condition' →
      declaredName? thenBranch' = none → Respelled Γ thenBranch thenBranch' Γ →
      declaredName? elseBranch' = none → Respelled Γ elseBranch elseBranch' Γ →
      Respelled Γ (.ifElse condition thenBranch elseBranch)
        (.ifElse condition' thenBranch' elseBranch') Γ
  | loop {Γ condition condition' body body'} :
      RespelledExpr (SameVariable I Γ) condition condition' →
      declaredName? body' = none → Respelled Γ body body' Γ →
      Respelled Γ (.loop condition body) (.loop condition' body') Γ
  | function {Γ routine routine'} : Declarable Γ routine.name.lexeme routine.name.lexeme →
      RespelledRoutine (declareBoth Γ routine.name.lexeme routine.name.lexeme) routine routine' →
      Respelled Γ (.function routine) (.function routine')
        (declareBoth Γ routine.name.lexeme routine.name.lexeme)
  | ret {Γ keyword value value'} : Option.Rel (RespelledExpr (SameVariable I Γ)) value value' →
      Respelled Γ (.ret keyword value) (.ret keyword value') Γ
  | classDecl {Γ name methods methods'} : Declarable Γ name.lexeme name.lexeme →
      RespelledMethods ([(selfName, selfName)] :: declareBoth Γ name.lexeme name.lexeme) methods
        methods' →
      Respelled Γ (.classDecl name methods) (.classDecl name methods')
        (declareBoth Γ name.lexeme name.lexeme)

/-- Statements in a row. -/
inductive RespelledAll : Spellings → List Stmt → List Stmt → Prop where
  | nil {Γ} : RespelledAll Γ [] []
  | cons {Γ Γ' s s' rest rest'} : Respelled Γ s s' Γ' → RespelledAll Γ' rest rest' →
      RespelledAll Γ (s :: rest) (s' :: rest')

/-- Two routines with the same name. -/
inductive RespelledRoutine : Spellings → Routine → Routine → Prop where
  | mk {Γ name parameters parameters' body body' scope} :
      RespelledParameters [] parameters parameters' scope →
      RespelledAll (scope :: Γ) body body' →
      RespelledRoutine Γ ⟨name, parameters, body⟩ ⟨name, parameters', body'⟩

/-- The methods of a class. -/
inductive RespelledMethods : Spellings → List Routine → List Routine → Prop where
  | nil {Γ} : RespelledMethods Γ [] []
  | cons {Γ method method' rest rest'} : RespelledRoutine Γ method method' →
      RespelledMethods Γ rest rest' → RespelledMethods Γ (method :: rest) (method' :: rest')
end

end Statements

/-! ## 3. Walks side by side -/

/-- Two scopes hold the same variables in two spellings. -/
structure ScopeFits (pairs : List (String × String)) (scope scope' : Scope) : Prop where
  first : ∀ name, scope.contains name = true ↔ name ∈ pairs.map Prod.fst
  second : ∀ name, scope'.contains name = true ↔ name ∈ pairs.map Prod.snd
  flags : ∀ name name', Paired True name name' pairs → scope'.get? name' = scope.get? name

/-- The open scopes of two walks hold the same variables in two spellings. -/
inductive ScopesFit : Spellings → List Scope → List Scope → Prop where
  | nil : ScopesFit [] [] []
  | cons {pairs Γ scope scope' S S'} : ScopeFits pairs scope scope' → ScopesFit Γ S S' →
      ScopesFit (pairs :: Γ) (scope :: S) (scope' :: S')

/-- Two walks have the same variables in two spellings, the same hop counts and equally many
faults. -/
structure Fits (Γ : Spellings) (st st' : State) : Prop where
  scopes : ScopesFit Γ st.scopes st'.scopes
  initializing : st'.initializing = st.initializing
  hops : st'.hops = st.hops
  faults : st'.faults.length = st.faults.length

theorem scopeFits_empty : ScopeFits [] .empty .empty := by
  refine ⟨?_, ?_, fun _ _ _ => rfl⟩ <;> simp

namespace ScopeFits

variable {pairs : List (String × String)} {scope scope' : Scope} {name name' : String}

/-- A variable is added to both scopes, or its readiness is changed in both. -/
theorem insert (h : ScopeFits pairs scope scope') (name name' : String) (ready : Bool) :
    ScopeFits ((name, name') :: pairs) (scope.insert name ready) (scope'.insert name' ready) := by
  refine ⟨?_, ?_, ?_⟩
  · intro other
    simp [NameMap.contains_insert, h.first]
  · intro other
    simp [NameMap.contains_insert, h.second]
  · rintro other other' (⟨rfl, rfl⟩ | ⟨hne, hne', hpaired⟩)
    · simp [NameMap.get?_insert]
    · simp [NameMap.get?_insert, hne, hne', h.flags other other' hpaired]

/-- A variable that both scopes have already may be named again. -/
theorem again (h : ScopeFits pairs scope scope') (hpaired : Paired True name name' pairs)
    (hname : scope.contains name = true) (hname' : scope'.contains name' = true) :
    ScopeFits ((name, name') :: pairs) scope scope' := by
  have hmem := (h.first name).mp hname
  have hmem' := (h.second name').mp hname'
  refine ⟨?_, ?_, ?_⟩
  · intro other
    rw [h.first, List.map_cons, List.mem_cons]
    exact ⟨.inr, fun h => h.elim (fun heq => heq ▸ hmem) id⟩
  · intro other
    rw [h.second, List.map_cons, List.mem_cons]
    exact ⟨.inr, fun h => h.elim (fun heq => heq ▸ hmem') id⟩
  · rintro other other' (⟨rfl, rfl⟩ | ⟨-, -, hother⟩)
    · exact h.flags _ _ hpaired
    · exact h.flags _ _ hother

/-- A variable that both scopes have already is made readable in both. -/
theorem ready (h : ScopeFits ((name, name') :: pairs) scope scope') :
    ScopeFits ((name, name') :: pairs) (scope.insert name true) (scope'.insert name' true) := by
  refine ⟨?_, ?_, ?_⟩
  · intro other
    rw [NameMap.contains_insert, Bool.or_eq_true, h.first, decide_eq_true_eq]
    exact ⟨fun h => h.elim (fun heq => heq ▸ List.mem_cons_self) id, .inr⟩
  · intro other
    rw [NameMap.contains_insert, Bool.or_eq_true, h.second, decide_eq_true_eq]
    exact ⟨fun h => h.elim (fun heq => heq ▸ List.mem_cons_self) id, .inr⟩
  · rintro other other' (⟨rfl, rfl⟩ | ⟨hne, hne', hpaired⟩)
    · simp [NameMap.get?_insert]
    · have hflags := h.flags other other' (.inr ⟨hne, hne', hpaired⟩)
      simp [NameMap.get?_insert, hne, hne', hflags]

/-- Two names are in both scopes or in neither. -/
theorem contains (h : ScopeFits pairs scope scope') {R : Prop}
    (hpaired : Paired R name name' pairs) : scope'.contains name' = scope.contains name := by
  rw [Bool.eq_iff_iff, h.first, h.second]
  rcases hpaired.sorted with ⟨hmem, hmem', -⟩ | ⟨hnot, hnot', -⟩
  · exact iff_of_true hmem' hmem
  · exact iff_of_false hnot' hnot

end ScopeFits

namespace ScopesFit

variable {Γ : Spellings} {S S' : List Scope} {name name' : String}

/-- The variable that two names mean is found at the same distance. -/
theorem findIdx? (h : ScopesFit Γ S S') (hlinked : Linked Γ name name') :
    S'.findIdx? (·.contains name') = S.findIdx? (·.contains name) := by
  induction h with
  | nil => rfl
  | cons hscope _ ih =>
    have hcontains := hscope.contains hlinked
    rw [List.findIdx?_cons, List.findIdx?_cons, hcontains]
    rcases Paired.sorted hlinked with ⟨hmem, -, -⟩ | ⟨-, -, houter⟩
    · simp [(hscope.first name).mpr hmem]
    · rw [ih houter]

/-- Names that mean the same and no local variable are equal. -/
theorem eq_of_absent (h : ScopesFit Γ S S') (hlinked : Linked Γ name name')
    (habsent : S.any (·.contains name) = false) : name' = name := by
  induction h with
  | nil => exact Eq.symm hlinked
  | cons hscope _ ih =>
    rw [List.any_cons, Bool.or_eq_false_iff] at habsent
    rcases Paired.sorted hlinked with ⟨hmem, -, -⟩ | ⟨-, -, houter⟩
    · rw [(hscope.first name).mpr hmem] at habsent
      cases habsent.1
    · exact ih houter habsent.2

theorem any (h : ScopesFit Γ S S') (hlinked : Linked Γ name name') :
    S'.any (·.contains name') = S.any (·.contains name) := by
  rw [← List.findIdx?_isSome, ← List.findIdx?_isSome, h.findIdx? hlinked]

/-- The readiness of a variable of the innermost scope is the same. -/
theorem innermost (h : ScopesFit Γ S S') (hlinked : Linked Γ name name') :
    S'.head?.bind (·.get? name') = S.head?.bind (·.get? name) := by
  cases h with
  | nil => rfl
  | @cons pairs Γ scope scope' S S' hscope _ =>
    change scope'.get? name' = scope.get? name
    rcases Paired.sorted hlinked with ⟨-, -, hpaired⟩ | ⟨hnot, hnot', -⟩
    · exact hscope.flags _ _ hpaired
    · have hgone : scope.contains name = false := by
        rw [← Bool.not_eq_true, hscope.first]
        exact hnot
      have hgone' : scope'.contains name' = false := by
        rw [← Bool.not_eq_true, hscope.second]
        exact hnot'
      rw [NameMap.contains, Option.isSome_eq_false_iff, Option.isNone_iff_eq_none] at hgone hgone'
      rw [hgone, hgone']

end ScopesFit

namespace Fits

variable {Γ : Spellings} {st st' : State} {t t' : Token}

theorem enter (h : Fits Γ st st') {pairs : List (String × String)} {scope scope' : Scope}
    (hscope : ScopeFits pairs scope scope') :
    Fits (pairs :: Γ) (st.enter scope) (st'.enter scope') :=
  ⟨.cons hscope h.scopes, h.initializing, h.hops, h.faults⟩

theorem leave {pairs : List (String × String)} (h : Fits (pairs :: Γ) st st') :
    Fits Γ st.leave st'.leave := by
  obtain ⟨hscopes, hinitializing, hhops, hfaults⟩ := h
  refine ⟨?_, hinitializing, hhops, hfaults⟩
  unfold State.leave
  generalize st.scopes = S, st'.scopes = S' at hscopes
  cases hscopes with
  | cons _ houter => exact houter

theorem complain (h : Fits Γ st st') (cause : BindingCause) :
    Fits Γ (st.complain t cause) (st'.complain t' cause) :=
  ⟨h.scopes, h.initializing, h.hops, by simp [State.complain, h.faults]⟩

theorem declare (h : Fits Γ st st') (hnames : Declarable Γ t.lexeme t'.lexeme) :
    Fits (declareBoth Γ t.lexeme t'.lexeme) (st.declare t) (st'.declare t') := by
  obtain ⟨S, initializing, hops, faults⟩ := st
  obtain ⟨S', initializing', hops', faults'⟩ := st'
  obtain ⟨hscopes, hinitializing, hhops, hfaults⟩ := h
  cases hscopes with
  | nil =>
    have hequal : t.lexeme = t'.lexeme := hnames
    refine ⟨.nil, ?_, hhops, hfaults⟩
    change t'.lexeme :: initializing' = t.lexeme :: initializing
    rw [hequal, show initializing' = initializing from hinitializing]
  | @cons pairs Γ scope scope' S S' hscope houter =>
    have hcontains := hscope.contains hnames
    unfold State.declare
    dsimp only
    rw [hcontains]
    cases hfound : scope.contains t.lexeme with
    | true =>
      rw [hfound] at hcontains
      refine complain ⟨.cons ?_ houter, hinitializing, hhops, hfaults⟩ .redeclared
      exact hscope.again hnames hfound hcontains
    | false => exact ⟨.cons (hscope.insert _ _ false) houter, hinitializing, hhops, hfaults⟩

theorem define (h : Fits (declareBoth Γ t.lexeme t'.lexeme) st st')
    (hnames : Declarable Γ t.lexeme t'.lexeme) :
    Fits (declareBoth Γ t.lexeme t'.lexeme) (st.define t) (st'.define t') := by
  obtain ⟨S, initializing, hops, faults⟩ := st
  obtain ⟨S', initializing', hops', faults'⟩ := st'
  obtain ⟨hscopes, hinitializing, hhops, hfaults⟩ := h
  cases Γ with
  | nil =>
    cases hscopes
    have hequal : t.lexeme = t'.lexeme := hnames
    refine ⟨.nil, ?_, hhops, hfaults⟩
    change initializing'.filter (· != t'.lexeme) = initializing.filter (· != t.lexeme)
    rw [hequal, show initializing' = initializing from hinitializing]
  | cons pairs outer =>
    cases hscopes with
    | cons hscope houter => exact ⟨.cons hscope.ready houter, hinitializing, hhops, hfaults⟩

theorem introduce (h : Fits Γ st st') (hnames : Declarable Γ t.lexeme t'.lexeme) :
    Fits (declareBoth Γ t.lexeme t'.lexeme) (st.introduce t) (st'.introduce t') :=
  (h.declare hnames).define hnames

theorem unready (h : Fits Γ st st') {name name' : String} (hlinked : Linked Γ name name') :
    st'.unready name' = st.unready name := by
  unfold State.unready
  rw [h.scopes.innermost hlinked, h.scopes.any hlinked, h.initializing]
  cases habsent : st.scopes.any (·.contains name) with
  | true => rfl
  | false => rw [h.scopes.eq_of_absent hlinked habsent]

theorem note (h : Fits Γ st st') {name name' : String} (hlinked : Linked Γ name name') (id : Nat) :
    Fits Γ (st.note id name) (st'.note id name') := by
  unfold State.note
  rw [h.scopes.findIdx? hlinked]
  cases st.scopes.findIdx? (·.contains name) with
  | none => exact h
  | some distance =>
    refine ⟨h.scopes, h.initializing, ?_, h.faults⟩
    change st'.hops.insert id distance = st.hops.insert id distance
    rw [h.hops]

theorem parameters {pairs final : List (String × String)} {ps ps' : List Token}
    (h : Fits (pairs :: Γ) st st') (hparameters : RespelledParameters pairs ps ps' final) :
    Fits (final :: Γ) (ps.foldl State.introduce st) (ps'.foldl State.introduce st') := by
  induction hparameters generalizing st st' with
  | nil => exact h
  | cons hnames _ ih => exact ih (h.introduce hnames)

end Fits

/-! ## 4. Walks over the same script -/

section Walks

variable {M : Mention → Mention → Prop} {Γ : Spellings} {st st' : State}

mutual
theorem fits_expr (hM : ∀ m m', M m m' → SameVariable Eq Γ m m') (ctx : Context) {e e' : Expr} :
    RespelledExpr M e e' → ∀ {st st' : State}, Fits Γ st st' →
    Fits Γ (expr ctx e st) (expr ctx e' st')
  | .literal, _, _, h => h
  | .group hinner, _, _, h => fits_expr hM ctx hinner h
  | .unary hoperand, _, _, h => fits_expr hM ctx hoperand h
  | .binary hleft hright, _, _, h => fits_expr hM ctx hright (fits_expr hM ctx hleft h)
  | .logical hleft hright, _, _, h => fits_expr hM ctx hright (fits_expr hM ctx hleft h)
  | .read hm, st, st', h => by
      obtain ⟨rfl, -, hlinked⟩ := hM _ _ hm
      rw [expr, expr, h.unready hlinked]
      refine Fits.note ?_ hlinked _
      split
      · exact h.complain .ownInitializer
      · exact h
  | .assign hm hvalue, st, st', h => by
      obtain ⟨rfl, -, hlinked⟩ := hM _ _ hm
      rw [expr, expr]
      exact (fits_expr hM ctx hvalue h).note hlinked _
  | .call hcallee harguments, _, _, h => fits_exprs hM ctx harguments (fits_expr hM ctx hcallee h)
  | .property hobject, _, _, h => fits_expr hM ctx hobject h
  | .setProperty hobject hvalue, _, _, h => fits_expr hM ctx hobject (fits_expr hM ctx hvalue h)
  | .self hm, st, st', h => by
      obtain ⟨rfl, -, hlinked⟩ := hM _ _ hm
      rw [expr, expr]
      split
      · exact h.note hlinked _
      · exact h.complain .strayThis

theorem fits_exprs (hM : ∀ m m', M m m' → SameVariable Eq Γ m m') (ctx : Context)
    {es es' : List Expr} : RespelledExprs M es es' → ∀ {st st' : State}, Fits Γ st st' →
    Fits Γ (exprs ctx es st) (exprs ctx es' st')
  | .nil, _, _, h => h
  | .cons he hrest, _, _, h => fits_exprs hM ctx hrest (fits_expr hM ctx he h)
end

theorem fits_exprOption (hM : ∀ m m', M m m' → SameVariable Eq Γ m m') (ctx : Context)
    {e e' : Option Expr} (he : Option.Rel (RespelledExpr M) e e') (h : Fits Γ st st') :
    Fits Γ (exprOption ctx e st) (exprOption ctx e' st') := by
  cases he with
  | none => exact h
  | some he => exact fits_expr hM ctx he h

theorem fits_ret (ctx : Context) {keyword : Token} {value value' : Option Expr}
    (hvalue : Option.Rel (RespelledExpr (SameVariable Eq Γ)) value value') (h : Fits Γ st st') :
    Fits Γ (stmt ctx (.ret keyword value) st) (stmt ctx (.ret keyword value') st') := by
  have hsome : value'.isSome = value.isSome := by cases hvalue <;> rfl
  rw [stmt, stmt, hsome]
  refine fits_exprOption (fun _ _ hm => hm) ctx hvalue ?_
  have hreturn : Fits Γ
      (if ctx.routine = .script then st.complain keyword .topLevelReturn else st)
      (if ctx.routine = .script then st'.complain keyword .topLevelReturn else st') := by
    split
    · exact h.complain .topLevelReturn
    · exact h
  split
  · exact hreturn.complain .initializerValue
  · exact hreturn

/-- The scopes around the innermost one are the same. -/
theorem tail_declareBoth (Γ : Spellings) (name name' : String) :
    (declareBoth Γ name name').tail = Γ.tail ∧ (declareBoth Γ name name' = [] ↔ Γ = []) := by
  cases Γ <;> simp [declareBoth]

/-- The walks over some statements end with the innermost scope grown. -/
def FitsAfter (Γ : Spellings) (st st' : State) : Prop :=
  ∃ Γ', Γ'.tail = Γ.tail ∧ (Γ' = [] ↔ Γ = []) ∧ Fits Γ' st st'

theorem FitsAfter.leave {pairs : List (String × String)} (h : FitsAfter (pairs :: Γ) st st') :
    Fits Γ st.leave st'.leave := by
  obtain ⟨Γ', htail, hnil, hfits⟩ := h
  cases Γ' with
  | nil => exact absurd (hnil.mp rfl) (List.cons_ne_nil _ _)
  | cons pairs' outer =>
    obtain rfl : outer = Γ := htail
    exact hfits.leave

theorem Respelled.tail {I : Nat → Nat → Prop} {Γ' : Spellings} {s s' : Stmt}
    (h : Respelled I Γ s s' Γ') : Γ'.tail = Γ.tail ∧ (Γ' = [] ↔ Γ = []) := by
  cases h with
  | var | function | classDecl => exact tail_declareBoth _ _ _
  | expression | print | block | ifThen | ifElse | loop | ret => exact ⟨rfl, Iff.rfl⟩

mutual
theorem fits_stmt (ctx : Context) {Γ Γ' : Spellings} {s s' : Stmt} :
    Respelled Eq Γ s s' Γ' → ∀ {st st' : State}, Fits Γ st st' →
    Fits Γ' (stmt ctx s st) (stmt ctx s' st')
  | .expression hvalue, _, _, h => fits_expr (fun _ _ hm => hm) ctx hvalue h
  | .print hvalue, _, _, h => fits_expr (fun _ _ hm => hm) ctx hvalue h
  | .var hnames hinitializer, _, _, h =>
      (fits_exprOption (fun _ _ hm => hm.toSameVariable) ctx hinitializer (h.declare hnames)).define
        hnames
  | .block hbody, _, _, h => (fits_stmts ctx hbody (h.enter scopeFits_empty)).leave
  | .ifThen hcondition _ hthen, _, _, h =>
      fits_stmt ctx hthen (fits_expr (fun _ _ hm => hm) ctx hcondition h)
  | .ifElse hcondition _ hthen _ helse, _, _, h =>
      fits_stmt ctx helse (fits_stmt ctx hthen (fits_expr (fun _ _ hm => hm) ctx hcondition h))
  | .loop hcondition _ hbody, _, _, h =>
      fits_stmt ctx hbody (fits_expr (fun _ _ hm => hm) ctx hcondition h)
  | .function hname (.mk hparameters hbody), _, _, h =>
      (fits_stmts { ctx with routine := .function } hbody
        (((h.introduce hname).enter scopeFits_empty).parameters hparameters)).leave
  | .ret hvalue, _, _, h => fits_ret ctx hvalue h
  | .classDecl hname hmethods, _, _, h =>
      (fits_routines hmethods ((h.introduce hname).enter
        (scopeFits_empty.insert selfName selfName true))).leave

theorem fits_stmts (ctx : Context) {Γ : Spellings} {body body' : List Stmt} :
    RespelledAll Eq Γ body body' → ∀ {st st' : State}, Fits Γ st st' →
    FitsAfter Γ (stmts ctx body st) (stmts ctx body' st')
  | .nil, _, _, h => ⟨Γ, rfl, Iff.rfl, h⟩
  | .cons hs hrest, _, _, h => by
      obtain ⟨htail, hnil⟩ := hs.tail
      obtain ⟨Γ', htail', hnil', hfits⟩ := fits_stmts ctx hrest (fits_stmt ctx hs h)
      exact ⟨Γ', htail'.trans htail, hnil'.trans hnil, hfits⟩

theorem fits_routines {Γ : Spellings} {methods methods' : List Routine} :
    RespelledMethods Eq Γ methods methods' → ∀ {st st' : State}, Fits Γ st st' →
    Fits Γ (routines methods st) (routines methods' st')
  | .nil, _, _, h => h
  | .cons hmethod hrest, _, _, h => fits_routines hrest (fits_routine hmethod h)

theorem fits_routine {Γ : Spellings} {r r' : Routine} :
    RespelledRoutine Eq Γ r r' → ∀ {st st' : State}, Fits Γ st st' →
    Fits Γ (routine r st) (routine r' st')
  | .mk hparameters hbody, _, _, h =>
      (fits_stmts _ hbody ((h.enter scopeFits_empty).parameters hparameters)).leave
end

/-- Binding the same script in two spellings gives the same hop counts and equally many faults. -/
theorem resolve_respelled {statements statements' : List Stmt}
    (h : RespelledAll Eq [] statements statements') (hops : HopTable) :
    (resolve statements' hops).1 = (resolve statements hops).1 ∧
      (resolve statements' hops).2.length = (resolve statements hops).2.length := by
  have hstart : Fits [] ⟨[], [], hops, []⟩ ⟨[], [], hops, []⟩ := ⟨.nil, rfl, rfl, rfl⟩
  obtain ⟨Γ', -, -, hfits⟩ := fits_stmts .top h hstart
  exact ⟨hfits.hops, hfits.faults⟩

end Walks

/-! ## 5. The second script -/

section Second

variable {I : Nat → Nat → Prop}

mutual
/-- No branch and no loop body of the second statement is itself a declaration. -/
theorem Respelled.tidy {Γ Γ' : Spellings} {s s' : Stmt} : Respelled I Γ s s' Γ' →
    Tidy (fun _ => True) s'
  | .expression _ => .expression
  | .print _ => .print
  | .var _ _ => .var trivial
  | .block hbody => .block hbody.tidy
  | .ifThen _ hthen hbranch => .ifThen hthen hbranch.tidy
  | .ifElse _ hthen hbranch helse hother => .ifElse hthen hbranch.tidy helse hother.tidy
  | .loop _ hnone hbody => .loop hnone hbody.tidy
  | .function _ hroutine => .function hroutine.tidy
  | .ret _ => .ret
  | .classDecl _ hmethods => .classDecl trivial hmethods.tidy

theorem RespelledAll.tidy {Γ : Spellings} {body body' : List Stmt} : RespelledAll I Γ body body' →
    TidyAll (fun _ => True) body'
  | .nil => .nil
  | .cons hs hrest => .cons hs.tidy hrest.tidy

theorem RespelledRoutine.tidy {Γ : Spellings} {r r' : Routine} : RespelledRoutine I Γ r r' →
    TidyRoutine (fun _ => True) r'
  | .mk _ hbody => .mk trivial (fun _ _ => trivial) hbody.tidy

theorem RespelledMethods.tidy {Γ : Spellings} {methods methods' : List Routine} :
    RespelledMethods I Γ methods methods' → TidyMethods (fun _ => True) methods'
  | .nil => .nil
  | .cons hmethod hrest => .cons hmethod.tidy hrest.tidy
end

section Identities

variable {M : Mention → Mention → Prop}

mutual
theorem RespelledExpr.ids (hM : ∀ m m', M m m' → m'.id = m.id) {e e' : Expr} :
    RespelledExpr M e e' → e'.mentions.map Mention.id = e.mentions.map Mention.id
  | .literal => rfl
  | .group hinner => hinner.ids hM
  | .unary hoperand => hoperand.ids hM
  | .binary hleft hright => by
      rw [Expr.mentions, Expr.mentions, List.map_append, List.map_append, hleft.ids hM,
        hright.ids hM]
  | .logical hleft hright => by
      rw [Expr.mentions, Expr.mentions, List.map_append, List.map_append, hleft.ids hM,
        hright.ids hM]
  | .read hm => congrArg (fun id => [id]) (hM _ _ hm)
  | .assign hm hvalue => by
      rw [Expr.mentions, Expr.mentions, List.map_cons, List.map_cons, hM _ _ hm, hvalue.ids hM]
  | .call hcallee harguments => by
      rw [Expr.mentions, Expr.mentions, List.map_append, List.map_append, hcallee.ids hM,
        harguments.ids hM]
  | .property hobject => hobject.ids hM
  | .setProperty hobject hvalue => by
      rw [Expr.mentions, Expr.mentions, List.map_append, List.map_append, hobject.ids hM,
        hvalue.ids hM]
  | .self hm => congrArg (fun id => [id]) (hM _ _ hm)

theorem RespelledExprs.ids (hM : ∀ m m', M m m' → m'.id = m.id) {es es' : List Expr} :
    RespelledExprs M es es' →
    (Expr.mentionsAll es').map Mention.id = (Expr.mentionsAll es).map Mention.id
  | .nil => rfl
  | .cons he hrest => by
      rw [Expr.mentionsAll, Expr.mentionsAll, List.map_append, List.map_append, he.ids hM,
        hrest.ids hM]
end

theorem ids_option (hM : ∀ m m', M m m' → m'.id = m.id) {e e' : Option Expr}
    (he : Option.Rel (RespelledExpr M) e e') :
    (Expr.mentionsOption e').map Mention.id = (Expr.mentionsOption e).map Mention.id := by
  cases he with
  | none => rfl
  | some he => exact he.ids hM

end Identities

mutual
theorem Respelled.ids {Γ Γ' : Spellings} {s s' : Stmt} : Respelled Eq Γ s s' Γ' →
    s'.mentions.map Mention.id = s.mentions.map Mention.id
  | .expression hvalue => hvalue.ids fun _ _ hm => hm.id.symm
  | .print hvalue => hvalue.ids fun _ _ hm => hm.id.symm
  | .var _ hinitializer => ids_option (fun _ _ hm => hm.id.symm) hinitializer
  | .block hbody => hbody.ids
  | .ifThen hcondition _ hbranch => by
      rw [Stmt.mentions, Stmt.mentions, List.map_append, List.map_append,
        hcondition.ids fun _ _ hm => hm.id.symm, hbranch.ids]
  | .ifElse hcondition _ hbranch _ hother => by
      rw [Stmt.mentions, Stmt.mentions, List.map_append, List.map_append, List.map_append,
        List.map_append, hcondition.ids fun _ _ hm => hm.id.symm, hbranch.ids, hother.ids]
  | .loop hcondition _ hbody => by
      rw [Stmt.mentions, Stmt.mentions, List.map_append, List.map_append,
        hcondition.ids fun _ _ hm => hm.id.symm, hbody.ids]
  | .function _ hroutine => hroutine.ids
  | .ret hvalue => ids_option (fun _ _ hm => hm.id.symm) hvalue
  | .classDecl _ hmethods => hmethods.ids

/-- Where identities are the same, the two scripts have the same identities in the same order. -/
theorem RespelledAll.ids {Γ : Spellings} {body body' : List Stmt} : RespelledAll Eq Γ body body' →
    (Stmt.mentionsAll body').map Mention.id = (Stmt.mentionsAll body).map Mention.id
  | .nil => rfl
  | .cons hs hrest => by
      rw [Stmt.mentionsAll, Stmt.mentionsAll, List.map_append, List.map_append, hs.ids, hrest.ids]

theorem RespelledRoutine.ids {Γ : Spellings} {r r' : Routine} : RespelledRoutine Eq Γ r r' →
    r'.mentions.map Mention.id = r.mentions.map Mention.id
  | .mk _ hbody => hbody.ids

theorem RespelledMethods.ids {Γ : Spellings} {methods methods' : List Routine} :
    RespelledMethods Eq Γ methods methods' →
    (Routine.mentionsAll methods').map Mention.id = (Routine.mentionsAll methods).map Mention.id
  | .nil => rfl
  | .cons hmethod hrest => by
      rw [Routine.mentionsAll, Routine.mentionsAll, List.map_append, List.map_append, hmethod.ids,
        hrest.ids]
end

end Second

/-! ## 6. Other identities -/

section Relabel

variable {I J : Nat → Nat → Prop} {σ : Relabelling}

section Expressions

variable {M N : Mention → Mention → Prop}

mutual
theorem RespelledExpr.relabel (hσ : ∀ t, σ.token t = t)
    (hM : ∀ m m', M m m' → N m { m' with id := σ.id m'.id }) {e e' : Expr} :
    RespelledExpr M e e' → RespelledExpr N e (e'.relabel σ)
  | .literal => .literal
  | .group hinner => .group (hinner.relabel hσ hM)
  | .unary hoperand => by
      rw [Expr.relabel, hσ]
      exact .unary (hoperand.relabel hσ hM)
  | .binary hleft hright => by
      rw [Expr.relabel, hσ]
      exact .binary (hleft.relabel hσ hM) (hright.relabel hσ hM)
  | .logical hleft hright => by
      rw [Expr.relabel, hσ]
      exact .logical (hleft.relabel hσ hM) (hright.relabel hσ hM)
  | .read hm => by
      rw [Expr.relabel, hσ]
      exact .read (hM _ _ hm)
  | .assign hm hvalue => by
      rw [Expr.relabel, hσ]
      exact .assign (hM _ _ hm) (hvalue.relabel hσ hM)
  | .call hcallee harguments => by
      rw [Expr.relabel, hσ]
      exact .call (hcallee.relabel hσ hM) (harguments.relabel hσ hM)
  | .property hobject => by
      rw [Expr.relabel, hσ]
      exact .property (hobject.relabel hσ hM)
  | .setProperty hobject hvalue => by
      rw [Expr.relabel, hσ]
      exact .setProperty (hobject.relabel hσ hM) (hvalue.relabel hσ hM)
  | .self hm => by
      rw [Expr.relabel, hσ]
      exact .self (hM _ _ hm)

theorem RespelledExprs.relabel (hσ : ∀ t, σ.token t = t)
    (hM : ∀ m m', M m m' → N m { m' with id := σ.id m'.id }) {es es' : List Expr} :
    RespelledExprs M es es' → RespelledExprs N es (Expr.relabelAll σ es')
  | .nil => .nil
  | .cons he hrest => .cons (he.relabel hσ hM) (hrest.relabel hσ hM)
end

theorem relabel_option (hσ : ∀ t, σ.token t = t)
    (hM : ∀ m m', M m m' → N m { m' with id := σ.id m'.id }) {e e' : Option Expr}
    (he : Option.Rel (RespelledExpr M) e e') :
    Option.Rel (RespelledExpr N) e (e'.map (·.relabel σ)) := by
  cases he with
  | none => exact .none
  | some he => exact .some (he.relabel hσ hM)

end Expressions

theorem SameVariable.relabel (hI : ∀ id id', I id id' → J id (σ.id id')) {Γ : Spellings}
    {m m' : Mention} (h : SameVariable I Γ m m') :
    SameVariable J Γ m { m' with id := σ.id m'.id } :=
  ⟨hI _ _ h.id, h.line, h.linked⟩

theorem InInitializer.relabel (hI : ∀ id id', I id id' → J id (σ.id id')) {Γ : Spellings}
    {name name' : String} {m m' : Mention} (h : InInitializer I Γ name name' m m') :
    InInitializer J Γ name name' m { m' with id := σ.id m'.id } :=
  ⟨h.toSameVariable.relabel hI, h.unread⟩

theorem declaredName?_relabel (s : Stmt) : declaredName? (s.relabel σ) = declaredName? s := by
  cases s with
  | var | function | classDecl => simp [declaredName?, Stmt.relabel]
  | expression | print | block | ifThen | ifElse | loop | ret => rfl

mutual
theorem Respelled.relabel (hσ : ∀ t, σ.token t = t) (hI : ∀ id id', I id id' → J id (σ.id id'))
    {Γ Γ' : Spellings} {s s' : Stmt} : Respelled I Γ s s' Γ' → Respelled J Γ s (s'.relabel σ) Γ'
  | .expression hvalue => .expression (hvalue.relabel hσ fun _ _ => .relabel hI)
  | .print hvalue => .print (hvalue.relabel hσ fun _ _ => .relabel hI)
  | .var hnames hinitializer => by
      rw [Stmt.relabel, hσ]
      exact .var hnames (relabel_option hσ (fun _ _ => .relabel hI) hinitializer)
  | .block hbody => .block (hbody.relabel hσ hI)
  | .ifThen hcondition hthen hbranch =>
      .ifThen (hcondition.relabel hσ fun _ _ => .relabel hI)
        ((declaredName?_relabel _).trans hthen) (hbranch.relabel hσ hI)
  | .ifElse hcondition hthen hbranch helse hother =>
      .ifElse (hcondition.relabel hσ fun _ _ => .relabel hI)
        ((declaredName?_relabel _).trans hthen) (hbranch.relabel hσ hI)
        ((declaredName?_relabel _).trans helse) (hother.relabel hσ hI)
  | .loop hcondition hnone hbody =>
      .loop (hcondition.relabel hσ fun _ _ => .relabel hI)
        ((declaredName?_relabel _).trans hnone) (hbody.relabel hσ hI)
  | .function hname hroutine => .function hname (hroutine.relabel hσ hI)
  | .ret hvalue => by
      rw [Stmt.relabel, hσ]
      exact .ret (relabel_option hσ (fun _ _ => .relabel hI) hvalue)
  | .classDecl hname hmethods => by
      rw [Stmt.relabel, hσ]
      exact .classDecl hname (hmethods.relabel hσ hI)

/-- The second script may have other identities. -/
theorem RespelledAll.relabel (hσ : ∀ t, σ.token t = t) (hI : ∀ id id', I id id' → J id (σ.id id'))
    {Γ : Spellings} {body body' : List Stmt} :
    RespelledAll I Γ body body' → RespelledAll J Γ body (Stmt.relabelAll σ body')
  | .nil => .nil
  | .cons hs hrest => .cons (hs.relabel hσ hI) (hrest.relabel hσ hI)

theorem RespelledRoutine.relabel (hσ : ∀ t, σ.token t = t)
    (hI : ∀ id id', I id id' → J id (σ.id id')) {Γ : Spellings} {r r' : Routine} :
    RespelledRoutine I Γ r r' → RespelledRoutine J Γ r (r'.relabel σ)
  | .mk hparameters hbody => by
      rw [Routine.relabel, hσ, List.map_congr_left (fun t _ => hσ t), List.map_id']
      exact .mk hparameters (hbody.relabel hσ hI)

theorem RespelledMethods.relabel (hσ : ∀ t, σ.token t = t)
    (hI : ∀ id id', I id id' → J id (σ.id id')) {Γ : Spellings} {methods methods' : List Routine} :
    RespelledMethods I Γ methods methods' →
    RespelledMethods J Γ methods (Routine.relabelAll σ methods')
  | .nil => .nil
  | .cons hmethod hrest => .cons (hmethod.relabel hσ hI) (hrest.relabel hσ hI)
end

end Relabel

end ScriptLang.Binding
