/-
ScriptLang.Proofs.Binding.Renaming — giving a local variable another name.

A local variable is renamed in its declaration, or among the parameters of its
routine, and wherever it is mentioned: in its own initializer and in what
comes after the declaration in its scope, up to where the name is declared
again (`Stmt.renameFree`). `RenamesAll x y` says that two scripts differ by
such a change of one variable from `x` to `y`, at any depth.

If the new name occurs nowhere in a script that is bound without faults, the
two scripts are the same up to spelling (`RenamesAll.respelled`). The
invariant (`Spelt`) says which name stands for the variable that is renamed, if
it is in force, and that all other names stand for themselves. A special case
is that nothing is renamed: every script is the same as itself
(`PlacedRoutine.respelled_self`).
-/
import ScriptLang.Proofs.Binding.Bound
import ScriptLang.Proofs.Binding.Respelled

namespace ScriptLang

open Binding (declaredName?)

/-! ## 1. Renaming -/

section Rename

variable (x y : String)

/-- A name, or the new one in place of the old one. -/
def renamed (name : String) : String := if name = x then y else name

/-- A token with a new name in place of the old one. -/
def Token.rename (t : Token) : Token := { t with lexeme := renamed x y t.lexeme }

/-- A mention with a new name in place of the old one. The keyword `this` is no name. -/
def Mention.rename (m : Mention) : Mention :=
  match m.role with
  | .read => { m with token := m.token.rename x y }
  | .assign => { m with token := m.token.rename x y }
  | .self => m

mutual
/-- An expression that mentions a variable by a new name. -/
def Expr.rename : Expr → Expr
  | .literal id value => .literal id value
  | .group id inner => .group id inner.rename
  | .unary id operator operand => .unary id operator operand.rename
  | .binary id left operator right => .binary id left.rename operator right.rename
  | .logical id left operator right => .logical id left.rename operator right.rename
  | .read id name => .read id (name.rename x y)
  | .assign id name value => .assign id (name.rename x y) value.rename
  | .call id callee paren arguments => .call id callee.rename paren (Expr.renameAll arguments)
  | .property id object name => .property id object.rename name
  | .setProperty id object name value => .setProperty id object.rename name value.rename
  | .self id keyword => .self id keyword

/-- Expressions that mention a variable by a new name. -/
def Expr.renameAll : List Expr → List Expr
  | [] => []
  | e :: rest => e.rename :: Expr.renameAll rest
end

mutual
/-- A statement that mentions a variable from outside by a new name. Where the old name is
declared again, it means another variable. -/
def Stmt.renameFree : Stmt → Stmt
  | .expression value => .expression (value.rename x y)
  | .print value => .print (value.rename x y)
  | .var name initializer =>
    if name.lexeme = x then .var name initializer
    else .var name (initializer.map (·.rename x y))
  | .block body => .block (Stmt.renameFreeAll body)
  | .ifThen condition thenBranch => .ifThen (condition.rename x y) thenBranch.renameFree
  | .ifElse condition thenBranch elseBranch =>
    .ifElse (condition.rename x y) thenBranch.renameFree elseBranch.renameFree
  | .loop condition body => .loop (condition.rename x y) body.renameFree
  | .function routine =>
    if routine.name.lexeme = x then .function routine else .function routine.renameFree
  | .ret keyword value => .ret keyword (value.map (·.rename x y))
  | .classDecl name methods =>
    if name.lexeme = x then .classDecl name methods
    else .classDecl name (Routine.renameFreeAll methods)

/-- Statements that mention a variable from outside by a new name. -/
def Stmt.renameFreeAll : List Stmt → List Stmt
  | [] => []
  | s :: rest =>
    s.renameFree :: if declaredName? s = some x then rest else Stmt.renameFreeAll rest

/-- A routine that mentions a variable from outside by a new name. -/
def Routine.renameFree : Routine → Routine
  | ⟨name, parameters, body⟩ =>
    if x ∈ parameters.map Token.lexeme then ⟨name, parameters, body⟩
    else ⟨name, parameters, Stmt.renameFreeAll body⟩

/-- Methods that mention a variable from outside by a new name. -/
def Routine.renameFreeAll : List Routine → List Routine
  | [] => []
  | method :: rest => method.renameFree :: Routine.renameFreeAll rest
end

mutual
/-- A statement in which one local variable has a new name. -/
inductive Renames : Stmt → Stmt → Prop where
  | block {body body'} : RenamesAll true body body' → Renames (.block body) (.block body')
  | ifThen {condition branch branch'} : Renames branch branch' →
      Renames (.ifThen condition branch) (.ifThen condition branch')
  | thenBranch {condition branch branch' other} : Renames branch branch' →
      Renames (.ifElse condition branch other) (.ifElse condition branch' other)
  | elseBranch {condition branch branch' other} : Renames branch branch' →
      Renames (.ifElse condition other branch) (.ifElse condition other branch')
  | loop {condition body body'} : Renames body body' →
      Renames (.loop condition body) (.loop condition body')
  | function {routine routine'} : RenamesRoutine routine routine' →
      Renames (.function routine) (.function routine')
  | classDecl {name methods methods'} : RenamesMethods methods methods' →
      Renames (.classDecl name methods) (.classDecl name methods')

/-- Statements in a row in which one local variable has a new name. One that is declared in this
row is local if the row stands in a block or in a routine. -/
inductive RenamesAll : Bool → List Stmt → List Stmt → Prop where
  | here {name initializer rest} : name.lexeme = x →
      RenamesAll true (.var name initializer :: rest)
        (.var (name.rename x y) (initializer.map (·.rename x y)) :: Stmt.renameFreeAll x y rest)
  | first {inside s s' rest} : Renames s s' → RenamesAll inside (s :: rest) (s' :: rest)
  | later {inside s rest rest'} : RenamesAll inside rest rest' →
      RenamesAll inside (s :: rest) (s :: rest')

/-- A routine in which one local variable, or a parameter, has a new name. -/
inductive RenamesRoutine : Routine → Routine → Prop where
  | parameter {name parameters body} : x ∈ parameters.map Token.lexeme →
      RenamesRoutine ⟨name, parameters, body⟩
        ⟨name, parameters.map (·.rename x y), Stmt.renameFreeAll x y body⟩
  | body {name parameters body body'} : RenamesAll true body body' →
      RenamesRoutine ⟨name, parameters, body⟩ ⟨name, parameters, body'⟩

/-- Methods, in one of which one local variable has a new name. -/
inductive RenamesMethods : List Routine → List Routine → Prop where
  | first {method method' rest} : RenamesRoutine method method' →
      RenamesMethods (method :: rest) (method' :: rest)
  | later {method rest rest'} : RenamesMethods rest rest' →
      RenamesMethods (method :: rest) (method :: rest')
end

end Rename

/-- The names an expression mentions. -/
def Expr.names (e : Expr) : List String := e.mentions.map (·.token.lexeme)

/-- The names mentioned by an expression that may be missing. -/
def Expr.namesOption (e : Option Expr) : List String :=
  (Expr.mentionsOption e).map (·.token.lexeme)

mutual
/-- The names of variables that occur in a statement: those it declares and those it mentions. -/
def Stmt.names : Stmt → List String
  | .expression value => value.names
  | .print value => value.names
  | .var name initializer => name.lexeme :: Expr.namesOption initializer
  | .block body => Stmt.namesAll body
  | .ifThen condition thenBranch => condition.names ++ thenBranch.names
  | .ifElse condition thenBranch elseBranch =>
    condition.names ++ (thenBranch.names ++ elseBranch.names)
  | .loop condition body => condition.names ++ body.names
  | .function routine => routine.name.lexeme :: routine.names
  | .ret _ value => Expr.namesOption value
  | .classDecl name methods => name.lexeme :: Routine.namesAll methods

/-- The names of variables that occur in some statements. -/
def Stmt.namesAll : List Stmt → List String
  | [] => []
  | s :: rest => s.names ++ Stmt.namesAll rest

/-- The names of variables that occur in a routine. -/
def Routine.names : Routine → List String
  | ⟨_, parameters, body⟩ => parameters.map Token.lexeme ++ Stmt.namesAll body

/-- The names of variables that occur in some methods. -/
def Routine.namesAll : List Routine → List String
  | [] => []
  | method :: rest => method.names ++ Routine.namesAll rest
end

/-! ## 2. No change -/

section Same

variable {x y : String}

@[simp] theorem renamed_self (name : String) : renamed x x name = name := by
  by_cases h : name = x <;> simp [renamed, h]

@[simp] theorem Token.rename_self (t : Token) : t.rename x x = t := by
  simp [Token.rename]

mutual
@[simp] theorem Expr.rename_self : ∀ e : Expr, e.rename x x = e
  | .literal _ _ => rfl
  | .group _ inner => by rw [Expr.rename, inner.rename_self]
  | .unary _ _ operand => by rw [Expr.rename, operand.rename_self]
  | .binary _ left _ right => by rw [Expr.rename, left.rename_self, right.rename_self]
  | .logical _ left _ right => by rw [Expr.rename, left.rename_self, right.rename_self]
  | .read _ name => by rw [Expr.rename, name.rename_self]
  | .assign _ name value => by rw [Expr.rename, name.rename_self, value.rename_self]
  | .call _ callee _ arguments => by
      rw [Expr.rename, callee.rename_self, Expr.renameAll_self arguments]
  | .property _ object _ => by rw [Expr.rename, object.rename_self]
  | .setProperty _ object _ value => by rw [Expr.rename, object.rename_self, value.rename_self]
  | .self _ _ => rfl

@[simp] theorem Expr.renameAll_self : ∀ es : List Expr, Expr.renameAll x x es = es
  | [] => rfl
  | e :: rest => by rw [Expr.renameAll, e.rename_self, Expr.renameAll_self rest]
end

@[simp] theorem Expr.map_rename_self (e : Option Expr) : e.map (·.rename x x) = e := by
  cases e <;> simp

mutual
@[simp] theorem Stmt.renameFree_self : ∀ s : Stmt, s.renameFree x x = s
  | .expression value => by rw [Stmt.renameFree, value.rename_self]
  | .print value => by rw [Stmt.renameFree, value.rename_self]
  | .var name initializer => by rw [Stmt.renameFree, Expr.map_rename_self, ite_self]
  | .block body => by rw [Stmt.renameFree, Stmt.renameFreeAll_self body]
  | .ifThen condition thenBranch => by
      rw [Stmt.renameFree, condition.rename_self, thenBranch.renameFree_self]
  | .ifElse condition thenBranch elseBranch => by
      rw [Stmt.renameFree, condition.rename_self, thenBranch.renameFree_self,
        elseBranch.renameFree_self]
  | .loop condition body => by rw [Stmt.renameFree, condition.rename_self, body.renameFree_self]
  | .function routine => by rw [Stmt.renameFree, routine.renameFree_self, ite_self]
  | .ret _ value => by rw [Stmt.renameFree, Expr.map_rename_self]
  | .classDecl _ methods => by
      rw [Stmt.renameFree, Routine.renameFreeAll_self methods, ite_self]

@[simp] theorem Stmt.renameFreeAll_self : ∀ body : List Stmt, Stmt.renameFreeAll x x body = body
  | [] => rfl
  | s :: rest => by
      rw [Stmt.renameFreeAll, s.renameFree_self, Stmt.renameFreeAll_self rest, ite_self]

@[simp] theorem Routine.renameFree_self : ∀ routine : Routine, routine.renameFree x x = routine
  | ⟨_, _, body⟩ => by rw [Routine.renameFree, Stmt.renameFreeAll_self body, ite_self]

@[simp] theorem Routine.renameFreeAll_self : ∀ methods : List Routine,
    Routine.renameFreeAll x x methods = methods
  | [] => rfl
  | method :: rest => by
      rw [Routine.renameFreeAll, method.renameFree_self, Routine.renameFreeAll_self rest]
end

/-- What the old name is replaced by after it was declared again, or was not. -/
theorem Stmt.renameFreeAll_cons (s : Stmt) (rest : List Stmt) :
    Stmt.renameFreeAll x y (s :: rest) = s.renameFree x y ::
      Stmt.renameFreeAll x (if declaredName? s = some x then x else y) rest := by
  rw [Stmt.renameFreeAll]
  split <;> simp

theorem Stmt.renameFree_var (name : Token) (initializer : Option Expr) :
    (Stmt.var name initializer).renameFree x y =
      .var name (initializer.map (·.rename x (if name.lexeme = x then x else y))) := by
  rw [Stmt.renameFree]
  split <;> simp

theorem Stmt.renameFree_function (routine : Routine) :
    (Stmt.function routine).renameFree x y =
      .function (routine.renameFree x (if routine.name.lexeme = x then x else y)) := by
  rw [Stmt.renameFree]
  split <;> simp

theorem Stmt.renameFree_classDecl (name : Token) (methods : List Routine) :
    (Stmt.classDecl name methods).renameFree x y =
      .classDecl name (Routine.renameFreeAll x (if name.lexeme = x then x else y) methods) := by
  rw [Stmt.renameFree]
  split <;> simp

theorem Routine.renameFree_mk (name : Token) (parameters : List Token) (body : List Stmt) :
    Routine.renameFree x y ⟨name, parameters, body⟩ =
      ⟨name, parameters,
        Stmt.renameFreeAll x (if x ∈ parameters.map Token.lexeme then x else y) body⟩ := by
  rw [Routine.renameFree]
  split <;> simp

theorem declaredName?_renameFree (s : Stmt) :
    declaredName? (s.renameFree x y) = declaredName? s := by
  cases s with
  | var => rw [Stmt.renameFree_var]; rfl
  | function routine =>
    rw [Stmt.renameFree_function]
    obtain ⟨name, parameters, body⟩ := routine
    rw [Routine.renameFree_mk]
    rfl
  | classDecl => rw [Stmt.renameFree_classDecl]; rfl
  | expression | print | block | ifThen | ifElse | loop | ret => rfl

end Same

namespace Binding

/-! ## 3. Spellings while renaming -/

/-- What the variables in force are called where `x` is being renamed to `y`: the old name stands
for `z`, which is one of the two, and other names for themselves. The innermost scope has the
same variables under both spellings. None of the names is `this`. -/
structure Spelt (x y z : String) (S : List Scope) (Γ : Spellings) : Prop where
  old : x ≠ selfName
  new : y ≠ selfName
  either : z = x ∨ z = y
  linked : Linked Γ x z
  others : ∀ name, name ≠ x → name ≠ y → Linked Γ name name
  innermost : ∀ pairs ∈ Γ.head?, ∃ scope ∈ S.head?, ∀ pair ∈ pairs,
    scope.contains pair.1 = true ∧ (pair.1 = y → y = x) ∧ (pair.2 = pair.1 ∨ pair = (x, y))

/-- Names that do not occur in a scope do not mean any of its variables. -/
theorem paired_absent {R : Prop} {name name' : String} {pairs : List (String × String)} (h : R)
    (hfirst : ∀ pair ∈ pairs, pair.1 ≠ name) (hsecond : ∀ pair ∈ pairs, pair.2 ≠ name') :
    Paired R name name' pairs := by
  induction pairs with
  | nil => exact h
  | cons pair rest ih =>
    refine .inr ⟨(hfirst pair List.mem_cons_self).symm, (hsecond pair List.mem_cons_self).symm, ?_⟩
    exact ih (fun pair hmem => hfirst pair (List.mem_cons_of_mem _ hmem))
      fun pair hmem => hsecond pair (List.mem_cons_of_mem _ hmem)

namespace Spelt

variable {x y z : String} {S : List Scope} {Γ : Spellings}

/-- At the top level, and in routines of which nothing is renamed, there is one spelling. -/
theorem top (hx : x ≠ selfName) (hy : y ≠ selfName) (S : List Scope) : Spelt x y x S [] where
  old := hx
  new := hy
  either := .inl rfl
  linked := rfl
  others _ _ _ := rfl
  innermost _ h := absurd h (by simp)

theorem enter (h : Spelt x y z S Γ) : Spelt x y z (.empty :: S) ([] :: Γ) where
  old := h.old
  new := h.new
  either := h.either
  linked := h.linked
  others := h.others
  innermost pairs hpairs := by
    obtain rfl : [] = pairs := by simpa using hpairs
    exact ⟨_, rfl, by simp⟩

/-- In the methods of a class, `this` means the instance. -/
theorem inClass (h : Spelt x y z S Γ) :
    Spelt x y z (thisScope :: S) ([(selfName, selfName)] :: Γ) where
  old := h.old
  new := h.new
  either := h.either
  linked := by
    have hz : z ≠ selfName := by
      rcases h.either with rfl | rfl
      · exact h.old
      · exact h.new
    exact .inr ⟨h.old, hz, h.linked⟩
  others name hname hname' := by
    by_cases hself : name = selfName
    · exact .inl ⟨hself, hself⟩
    · exact .inr ⟨hself, hself, h.others name hname hname'⟩
  innermost pairs hpairs := by
    obtain rfl : [(selfName, selfName)] = pairs := by simpa using hpairs
    refine ⟨_, rfl, fun pair hpair => ?_⟩
    obtain rfl : pair = (selfName, selfName) := by simpa using hpair
    exact ⟨by simp [thisScope, NameMap.contains_insert], fun hself => absurd hself.symm h.new,
      .inl rfl⟩

/-- A new variable may be declared side by side, also under two spellings if it is local. -/
theorem declarable (h : Spelt x y z S Γ) {name w : String} (hfresh : Fresh S name)
    (hname : name = y → y = x) (hw : w = x ∨ w = y ∧ Γ ≠ []) :
    Declarable Γ name (renamed x w name) := by
  cases Γ with
  | nil =>
    obtain rfl : w = x := hw.resolve_right fun hboth => hboth.2 rfl
    exact (renamed_self name).symm
  | cons pairs outer =>
    obtain ⟨scope, hscope, hpairs⟩ := h.innermost pairs rfl
    have hgone := hfresh scope hscope
    have hfirst : ∀ pair ∈ pairs, pair.1 ≠ name := by
      rintro pair hpair rfl
      rw [(hpairs pair hpair).1] at hgone
      cases hgone
    refine paired_absent trivial hfirst fun pair hpair hequal => ?_
    obtain ⟨-, hnew, hsame⟩ := hpairs pair hpair
    have hother := hfirst pair hpair
    unfold renamed at hequal
    -- A variable that is spelled so in the second script would be the declared one.
    grind

/-- A variable was declared, under two spellings if it is the one that is renamed. -/
theorem declare (h : Spelt x y z S Γ) {name w : String} (hname : name = y → y = x)
    (hw : w = x ∨ w = y ∧ Γ ≠ []) (ready : Bool) :
    Spelt x y (if name = x then w else z) (declared S name ready)
      (declareBoth Γ name (renamed x w name)) := by
  cases Γ with
  | nil =>
    obtain rfl : w = x := hw.resolve_right fun hboth => hboth.2 rfl
    obtain rfl : w = z := h.linked
    rw [ite_self]
    exact top h.old h.new _
  | cons pairs outer =>
    obtain ⟨scope, hscope, hpairs⟩ := h.innermost pairs rfl
    obtain ⟨rest, rfl⟩ := List.head?_eq_some_iff.mp hscope
    have heither := h.either
    have hlinked := h.linked
    refine ⟨h.old, h.new, by grind, ?_, ?_, ?_⟩
    · by_cases hx : name = x
      · refine .inl ⟨hx.symm, ?_⟩
        rw [if_pos hx, renamed, if_pos hx]
      · refine .inr ⟨Ne.symm hx, ?_, ?_⟩
        · rw [if_neg hx, renamed, if_neg hx]
          grind
        · rw [if_neg hx]
          exact hlinked
    · intro other hother hother'
      by_cases hequal : other = name
      · refine .inl ⟨hequal, ?_⟩
        rw [renamed, if_neg (hequal ▸ hother), hequal]
      · refine .inr ⟨hequal, ?_, h.others other hother hother'⟩
        unfold renamed
        grind
    · intro pairs' hpairs'
      obtain rfl : (name, renamed x w name) :: pairs = pairs' := by
        simpa [declareBoth] using hpairs'
      refine ⟨scope.insert name ready, rfl, fun pair hpair => ?_⟩
      rw [NameMap.contains_insert]
      rcases List.mem_cons.mp hpair with rfl | hpair
      · refine ⟨by simp, hname, ?_⟩
        unfold renamed
        grind
      · obtain ⟨hcontains, hold⟩ := hpairs pair hpair
        exact ⟨by simp [hcontains], hold⟩

/-- The parameters of a routine were declared, the one that is renamed under two spellings. -/
theorem parameters {w : String} (hw : w = x ∨ w = y) {parameters : List Token} :
    ∀ {z : String} {scope : Scope} {pairs : List (String × String)},
    Spelt x y z (scope :: S) (pairs :: Γ) → (parameters.map Token.lexeme).Nodup →
    (∀ t ∈ parameters, scope.contains t.lexeme = false) →
    (∀ t ∈ parameters, t.lexeme = y → y = x) →
    ∃ final, RespelledParameters pairs parameters (parameters.map (·.rename x w)) final ∧
      Spelt x y (if x ∈ parameters.map Token.lexeme then w else z)
        (parameters.foldl (fun scope t => scope.insert t.lexeme true) scope :: S) (final :: Γ) := by
  induction parameters with
  | nil => exact fun h _ _ _ => ⟨_, .nil, h⟩
  | cons t rest ih =>
    intro z scope pairs h hnodup hfresh hnames
    obtain ⟨hnot, hnodup⟩ := List.nodup_cons.mp hnodup
    have hname := hnames t List.mem_cons_self
    have hw' : w = x ∨ w = y ∧ pairs :: Γ ≠ [] := hw.imp_right fun h => ⟨h, List.cons_ne_nil _ _⟩
    have hdeclarable := h.declarable (fun _ hscope => by
      obtain rfl : scope = _ := by simpa using hscope
      exact hfresh t List.mem_cons_self) hname hw'
    have hrest : ∀ t' ∈ rest, (scope.insert t.lexeme true).contains t'.lexeme = false := by
      intro t' ht'
      have hne : t'.lexeme ≠ t.lexeme := fun heq => hnot (heq ▸ List.mem_map_of_mem ht')
      rw [NameMap.contains_insert, hfresh t' (List.mem_cons_of_mem _ ht')]
      simp [hne]
    obtain ⟨final, hparameters, hspelt⟩ := ih (h.declare hname hw' true) hnodup hrest
      fun t' ht' => hnames t' (List.mem_cons_of_mem _ ht')
    refine ⟨final, .cons hdeclarable hparameters, ?_⟩
    have hafter : (if x ∈ (t :: rest).map Token.lexeme then w else z) =
        if x ∈ rest.map Token.lexeme then w else if t.lexeme = x then w else z := by
      rw [List.map_cons]
      grind
    rw [hafter]
    exact hspelt

/-- A name that occurs and the name it is replaced by mean the same. -/
theorem linked_renamed (h : Spelt x y z S Γ) {name : String} (hname : name = y → y = x) :
    Linked Γ name (renamed x z name) := by
  by_cases hx : name = x
  · rw [renamed, if_pos hx, hx]
    exact h.linked
  · rw [renamed, if_neg hx]
    exact h.others name hx fun hy => hx (hy.trans (hname hy))

variable {I : Nat → Nat → Prop} {hops : HopTable} {bound : Nat} {m : Mention}

theorem sameVariable (h : Spelt x y z S Γ) (hI : ∀ id, I id id)
    (hname : m.token.lexeme = y → y = x) (hself : m.role = .self → m.token.lexeme = selfName) :
    SameVariable I Γ m (m.rename x z) := by
  obtain ⟨role, id, token⟩ := m
  cases role with
  | read | assign => exact ⟨hI id, rfl, h.linked_renamed hname⟩
  | self =>
    have hlexeme : token.lexeme = selfName := hself rfl
    refine ⟨hI id, rfl, h.others _ ?_ ?_⟩
    · exact fun heq => h.old (heq.symm.trans hlexeme)
    · exact fun heq => h.new (heq.symm.trans hlexeme)

/-- In the initializer of a variable as well, if it does not read the variable that is renamed. -/
theorem inInitializer (h : Spelt x y z S Γ) (hI : ∀ id, I id id) {name w : String}
    (hdeclared : name = y → y = x) (hw : w = x ∨ w = y ∧ Γ ≠ [])
    (hname : m.token.lexeme = y → y = x)
    (hself : m.role = .self → m.token.lexeme = selfName)
    (hread : w = x ∨ (m.role = .read → m.token.lexeme ≠ name)) :
    InInitializer I Γ name (renamed x w name) m (m.rename x (if name = x then w else z)) := by
  refine ⟨(h.declare hdeclared hw false).sameVariable hI hname hself, ?_⟩
  obtain ⟨role, id, token⟩ := m
  cases role with
  | assign => exact .inl rfl
  | self => exact .inr (.inl rfl)
  | read =>
    by_cases hequal : token.lexeme = name
    · obtain rfl : w = x := hread.resolve_right fun hne => hne rfl hequal
      refine .inr (.inl ?_)
      change renamed w _ token.lexeme = token.lexeme
      rw [hequal]
      by_cases hw : name = w
      · rw [if_pos hw, renamed_self]
      · rw [renamed, if_neg hw]
    · exact .inr (.inr hequal)

end Spelt

/-! ## 4. Renamed trees in two spellings -/

section Expressions

variable {M : Mention → Mention → Prop} {x y : String}

mutual
theorem respelledExpr_rename : ∀ e : Expr, (∀ m ∈ e.mentions, M m (m.rename x y)) →
    RespelledExpr M e (e.rename x y)
  | .literal _ _, _ => .literal
  | .group _ inner, h => .group (respelledExpr_rename inner h)
  | .unary _ _ operand, h => .unary (respelledExpr_rename operand h)
  | .binary _ left _ right, h =>
      .binary (respelledExpr_rename left fun m hm => h m (List.mem_append_left _ hm))
        (respelledExpr_rename right fun m hm => h m (List.mem_append_right _ hm))
  | .logical _ left _ right, h =>
      .logical (respelledExpr_rename left fun m hm => h m (List.mem_append_left _ hm))
        (respelledExpr_rename right fun m hm => h m (List.mem_append_right _ hm))
  | .read _ _, h => .read (h _ (List.mem_singleton.mpr rfl))
  | .assign _ _ value, h =>
      .assign (h _ List.mem_cons_self)
        (respelledExpr_rename value fun m hm => h m (List.mem_cons_of_mem _ hm))
  | .call _ callee _ arguments, h =>
      .call (respelledExpr_rename callee fun m hm => h m (List.mem_append_left _ hm))
        (respelledExprs_rename arguments fun m hm => h m (List.mem_append_right _ hm))
  | .property _ object _, h => .property (respelledExpr_rename object h)
  | .setProperty _ object _ value, h =>
      .setProperty (respelledExpr_rename object fun m hm => h m (List.mem_append_left _ hm))
        (respelledExpr_rename value fun m hm => h m (List.mem_append_right _ hm))
  | .self _ _, h => .self (h _ (List.mem_singleton.mpr rfl))

theorem respelledExprs_rename : ∀ es : List Expr, (∀ m ∈ Expr.mentionsAll es, M m (m.rename x y)) →
    RespelledExprs M es (Expr.renameAll x y es)
  | [], _ => .nil
  | e :: rest, h =>
      .cons (respelledExpr_rename e fun m hm => h m (List.mem_append_left _ hm))
        (respelledExprs_rename rest fun m hm => h m (List.mem_append_right _ hm))
end

theorem respelledOption_rename (e : Option Expr)
    (h : ∀ m ∈ Expr.mentionsOption e, M m (m.rename x y)) :
    Option.Rel (RespelledExpr M) e (e.map (·.rename x y)) := by
  cases e with
  | none => exact .none
  | some e => exact .some (respelledExpr_rename e h)

end Expressions

section Statements

variable {I : Nat → Nat → Prop} {hops : HopTable} {bound : Nat} {x y z : String} {S : List Scope}
variable {Γ : Spellings}

/-- The new name does not occur, unless nothing is renamed. -/
def Unused (x y : String) (names : List String) : Prop := ∀ name ∈ names, name = y → y = x

theorem Unused.left {names names' : List String} (h : Unused x y (names ++ names')) :
    Unused x y names :=
  fun name hname => h name (List.mem_append_left _ hname)

theorem Unused.right {names names' : List String} (h : Unused x y (names ++ names')) :
    Unused x y names' :=
  fun name hname => h name (List.mem_append_right _ hname)

theorem Unused.head {name : String} {names : List String} (h : Unused x y (name :: names)) :
    name = y → y = x :=
  h name List.mem_cons_self

theorem Unused.tail {name : String} {names : List String} (h : Unused x y (name :: names)) :
    Unused x y names :=
  fun other hother => h other (List.mem_cons_of_mem _ hother)

/-- The variables in force after a statement whose declaration has one spelling. -/
def spellingsAfter (Γ : Spellings) (s : Stmt) : Spellings :=
  match declaredName? s with
  | some name => declareBoth Γ name name
  | none => Γ

theorem spellingsAfter_none {s : Stmt} (h : declaredName? s = none) : spellingsAfter Γ s = Γ := by
  rw [spellingsAfter, h]

/-- The name that a statement declares occurs in it. -/
theorem mem_names_of_declaredName? {s : Stmt} {name : String} (h : declaredName? s = some name) :
    name ∈ s.names := by
  cases s with
  | var | function | classDecl =>
    obtain rfl : _ = name := by simpa [declaredName?] using h
    simp [Stmt.names]
  | expression | print | block | ifThen | ifElse | loop | ret => cases h

namespace Spelt

/-- After a declaration with one spelling, the old name stands for itself if it was declared. -/
theorem declareSame (h : Spelt x y z S Γ) {name : String} (hname : name = y → y = x)
    (ready : Bool) :
    Spelt x y (if name = x then x else z) (declared S name ready) (declareBoth Γ name name) := by
  have hdeclare := h.declare hname (.inl rfl) ready
  rwa [renamed_self] at hdeclare

theorem declarableSame (h : Spelt x y z S Γ) {name : String} (hfresh : Fresh S name)
    (hname : name = y → y = x) : Declarable Γ name name := by
  have hdeclarable := h.declarable hfresh hname (.inl rfl)
  rwa [renamed_self] at hdeclarable

theorem after (h : Spelt x y z S Γ) {s : Stmt} (hnames : Unused x y s.names) :
    Spelt x y (if declaredName? s = some x then x else z) (scopesAfter S s)
      (spellingsAfter Γ s) := by
  unfold scopesAfter spellingsAfter
  cases hdeclared : declaredName? s with
  | none => simpa using h
  | some name =>
    have hspelt := h.declareSame (hnames name (mem_names_of_declaredName? hdeclared)) true
    simpa using hspelt

/-- The parameters and the scope of a routine that is declared. -/
theorem routine (h : Spelt x y z S Γ) {w : String} (hw : w = x ∨ w = y) {parameters : List Token}
    (hnodup : (parameters.map Token.lexeme).Nodup)
    (hnames : Unused x y (parameters.map Token.lexeme)) :
    ∃ final, RespelledParameters [] parameters (parameters.map (·.rename x w)) final ∧
      Spelt x y (if x ∈ parameters.map Token.lexeme then w else z)
        (parameterScope parameters :: S) (final :: Γ) :=
  Spelt.parameters hw h.enter hnodup (fun _ _ => rfl)
    fun _ ht => hnames _ (List.mem_map_of_mem ht)

theorem expr (hI : ∀ id, I id id) (h : Spelt x y z S Γ) {e : Expr}
    (hmentions : ∀ m ∈ e.mentions, Addressed hops bound S m) (hnames : Unused x y e.names) :
    RespelledExpr (SameVariable I Γ) e (e.rename x z) := by
  refine respelledExpr_rename e fun m hm => ?_
  exact h.sameVariable hI (hnames _ (List.mem_map_of_mem hm)) (hmentions m hm).spelled

theorem expr_self (hI : ∀ id, I id id) (h : Spelt x y x S Γ) {e : Expr}
    (hmentions : ∀ m ∈ e.mentions, Addressed hops bound S m) (hnames : Unused x y e.names) :
    RespelledExpr (SameVariable I Γ) e e := by
  have hrespelled := h.expr hI hmentions hnames
  rwa [Expr.rename_self] at hrespelled

theorem option (hI : ∀ id, I id id) (h : Spelt x y z S Γ) {e : Option Expr}
    (hmentions : ∀ m ∈ Expr.mentionsOption e, Addressed hops bound S m)
    (hnames : Unused x y (Expr.namesOption e)) :
    Option.Rel (RespelledExpr (SameVariable I Γ)) e (e.map (·.rename x z)) := by
  refine respelledOption_rename e fun m hm => ?_
  exact h.sameVariable hI (hnames _ (List.mem_map_of_mem hm)) (hmentions m hm).spelled

/-- The initializer of a variable that keeps its name. -/
theorem initializer (hI : ∀ id, I id id) (h : Spelt x y z S Γ) {name : String} {e : Option Expr}
    (hmentions : ∀ m ∈ Expr.mentionsOption e, Addressed hops bound (declared S name false) m)
    (hnames : Unused x y (name :: Expr.namesOption e)) :
    Option.Rel (RespelledExpr (InInitializer I Γ name name)) e
      (e.map (·.rename x (if name = x then x else z))) := by
  refine respelledOption_rename e fun m hm => ?_
  have hinitializer := h.inInitializer hI hnames.head (.inl rfl)
    (hnames.tail _ (List.mem_map_of_mem hm)) (hmentions m hm).spelled (.inl rfl)
  rwa [renamed_self] at hinitializer

/-- The initializer of the variable that is renamed. It may change the variable but not read it. -/
theorem ownInitializer (hI : ∀ id, I id id) (h : Spelt x y z S Γ) (hlocal : Γ ≠ [])
    {e : Option Expr}
    (hmentions : ∀ m ∈ Expr.mentionsOption e, Addressed hops bound (declared S x false) m)
    (hnames : Unused x y (x :: Expr.namesOption e)) :
    Option.Rel (RespelledExpr (InInitializer I Γ x y)) e (e.map (·.rename x y)) := by
  obtain ⟨pairs, hpairs⟩ := Option.isSome_iff_exists.mp (List.isSome_head?.mpr hlocal)
  obtain ⟨scope, hscope, -⟩ := h.innermost pairs hpairs
  obtain ⟨rest, rfl⟩ := List.head?_eq_some_iff.mp hscope
  refine respelledOption_rename e fun m hm => ?_
  have hunread : m.role = .read → m.token.lexeme ≠ x := by
    intro hrole hequal
    have hfound : (declared (scope :: rest) x false).findIdx? (·.contains m.token.lexeme)
        = some 0 := by
      rw [declared, List.findIdx?_cons, if_pos (by simp [NameMap.contains_insert, hequal])]
    have hready := (hmentions m hm).ready hrole 0 _ hfound rfl
    rw [NameMap.get?_insert, if_pos hequal] at hready
    cases hready
  have hinitializer := h.inInitializer hI hnames.head (.inr ⟨rfl, hlocal⟩)
    (hnames.tail _ (List.mem_map_of_mem hm)) (hmentions m hm).spelled (.inr hunread)
  rwa [renamed, if_pos rfl, if_pos rfl] at hinitializer

end Spelt

mutual
/-- A statement and the statement in which a variable from outside has its name replaced. -/
theorem Placed.respelled (hI : ∀ id, I id id) {S : List Scope} {s : Stmt} :
    Placed (Addressed hops bound) S s →
    ∀ {Γ : Spellings} {z : String}, Spelt x y z S Γ → Unused x y s.names →
    Respelled I Γ s (s.renameFree x z) (spellingsAfter Γ s)
  | .expression hvalue, _, _, h, hnames => .expression (h.expr hI hvalue hnames)
  | .print hvalue, _, _, h, hnames => .print (h.expr hI hvalue hnames)
  | .var hfresh hinitializer, _, _, h, hnames => by
      rw [Stmt.renameFree_var]
      exact .var (h.declarableSame hfresh hnames.head) (h.initializer hI hinitializer hnames)
  | .block hbody, _, _, h, hnames => .block (hbody.respelled hI h.enter hnames)
  | .ifThen hcondition hthen hbranch, _, _, h, hnames => by
      have hrespelled := hbranch.respelled hI h hnames.right
      rw [spellingsAfter_none hthen] at hrespelled
      exact .ifThen (h.expr hI hcondition hnames.left)
        ((declaredName?_renameFree _).trans hthen) hrespelled
  | .ifElse hcondition hthen hbranch helse hother, _, _, h, hnames => by
      have hrespelled := hbranch.respelled hI h hnames.right.left
      have hrespelled' := hother.respelled hI h hnames.right.right
      rw [spellingsAfter_none hthen] at hrespelled
      rw [spellingsAfter_none helse] at hrespelled'
      exact .ifElse (h.expr hI hcondition hnames.left)
        ((declaredName?_renameFree _).trans hthen) hrespelled
        ((declaredName?_renameFree _).trans helse) hrespelled'
  | .loop hcondition hnone hbody, _, _, h, hnames => by
      have hrespelled := hbody.respelled hI h hnames.right
      rw [spellingsAfter_none hnone] at hrespelled
      exact .loop (h.expr hI hcondition hnames.left)
        ((declaredName?_renameFree _).trans hnone) hrespelled
  | .function hfresh hroutine, _, _, h, hnames => by
      rw [Stmt.renameFree_function]
      exact .function (h.declarableSame hfresh hnames.head)
        (hroutine.respelled hI (h.declareSame hnames.head true) hnames.tail)
  | .ret hvalue, _, _, h, hnames => .ret (h.option hI hvalue hnames)
  | .classDecl hfresh hmethods, _, _, h, hnames => by
      rw [Stmt.renameFree_classDecl]
      exact .classDecl (h.declarableSame hfresh hnames.head)
        (hmethods.respelled hI ((h.declareSame hnames.head true).inClass) hnames.tail)

theorem PlacedAll.respelled (hI : ∀ id, I id id) {S : List Scope} {body : List Stmt} :
    PlacedAll (Addressed hops bound) S body →
    ∀ {Γ : Spellings} {z : String}, Spelt x y z S Γ → Unused x y (Stmt.namesAll body) →
    RespelledAll I Γ body (Stmt.renameFreeAll x z body)
  | .nil, _, _, _, _ => .nil
  | .cons hs hrest, _, _, h, hnames => by
      rw [Stmt.renameFreeAll_cons]
      exact .cons (hs.respelled hI h hnames.left)
        (hrest.respelled hI (h.after hnames.left) hnames.right)

theorem PlacedRoutine.respelled (hI : ∀ id, I id id) {S : List Scope} {r : Routine} :
    PlacedRoutine (Addressed hops bound) S r →
    ∀ {Γ : Spellings} {z : String}, Spelt x y z S Γ → Unused x y r.names →
    RespelledRoutine I Γ r (r.renameFree x z)
  | .mk hnodup hbody, _, _, h, hnames => by
      obtain ⟨final, hparameters, hspelt⟩ := h.routine (.inl rfl) hnodup hnames.left
      rw [Routine.renameFree_mk]
      simp only [Token.rename_self, List.map_id'] at hparameters
      exact .mk hparameters (hbody.respelled hI hspelt hnames.right)

theorem PlacedMethods.respelled (hI : ∀ id, I id id) {S : List Scope} {methods : List Routine} :
    PlacedMethods (Addressed hops bound) S methods →
    ∀ {Γ : Spellings} {z : String}, Spelt x y z S Γ → Unused x y (Routine.namesAll methods) →
    RespelledMethods I Γ methods (Routine.renameFreeAll x z methods)
  | .nil, _, _, _, _ => .nil
  | .cons hmethod hrest, _, _, h, hnames =>
      .cons (hmethod.respelled hI h hnames.left) (hrest.respelled hI h hnames.right)
end

theorem Placed.respelled_self (hI : ∀ id, I id id) {s : Stmt}
    (hs : Placed (Addressed hops bound) S s) (h : Spelt x y x S Γ) (hnames : Unused x y s.names) :
    Respelled I Γ s s (spellingsAfter Γ s) := by
  have hrespelled := hs.respelled hI h hnames
  rwa [Stmt.renameFree_self] at hrespelled

theorem PlacedAll.respelled_self (hI : ∀ id, I id id) {body : List Stmt}
    (hbody : PlacedAll (Addressed hops bound) S body) (h : Spelt x y x S Γ)
    (hnames : Unused x y (Stmt.namesAll body)) : RespelledAll I Γ body body := by
  have hrespelled := hbody.respelled hI h hnames
  rwa [Stmt.renameFreeAll_self] at hrespelled

theorem PlacedRoutine.respelled_self (hI : ∀ id, I id id) {r : Routine}
    (hr : PlacedRoutine (Addressed hops bound) S r) (h : Spelt x y x S Γ)
    (hnames : Unused x y r.names) : RespelledRoutine I Γ r r := by
  have hrespelled := hr.respelled hI h hnames
  rwa [Routine.renameFree_self] at hrespelled

theorem PlacedMethods.respelled_self (hI : ∀ id, I id id) {methods : List Routine}
    (hmethods : PlacedMethods (Addressed hops bound) S methods) (h : Spelt x y x S Γ)
    (hnames : Unused x y (Routine.namesAll methods)) : RespelledMethods I Γ methods methods := by
  have hrespelled := hmethods.respelled hI h hnames
  rwa [Routine.renameFreeAll_self] at hrespelled

end Statements

end Binding

/-! ## 5. Renamed scripts in two spellings -/

section Scripts

open Binding

variable {I : Nat → Nat → Prop} {hops : HopTable} {bound : Nat} {x y : String}

/-- A local variable of a statement is not what the statement itself declares. -/
theorem declaredName?_renames {s s' : Stmt} (h : Renames x y s s') :
    declaredName? s' = declaredName? s := by
  cases h with
  | block | ifThen | thenBranch | elseBranch | loop | classDecl => rfl
  | function hroutine => cases hroutine <;> rfl

mutual
theorem Renames.respelled (hI : ∀ id, I id id) {s s' : Stmt} : Renames x y s s' →
    ∀ {S : List Scope} {Γ : Spellings}, Placed (Addressed hops bound) S s → Spelt x y x S Γ →
    Unused x y s.names → Respelled I Γ s s' (spellingsAfter Γ s)
  | .block hbody, _, _, .block hplaced, h, hnames =>
      .block (hbody.respelled hI hplaced h.enter (fun _ => List.cons_ne_nil _ _) hnames)
  | .ifThen hbranch, _, _, .ifThen hcondition hthen hplaced, h, hnames => by
      have hrespelled := hbranch.respelled hI hplaced h hnames.right
      rw [spellingsAfter_none hthen] at hrespelled
      exact .ifThen (h.expr_self hI hcondition hnames.left)
        ((declaredName?_renames hbranch).trans hthen) hrespelled
  | .thenBranch hbranch, _, _, .ifElse hcondition hthen hplaced helse hother, h, hnames => by
      have hrespelled := hbranch.respelled hI hplaced h hnames.right.left
      have hsame := hother.respelled_self hI h hnames.right.right
      rw [spellingsAfter_none hthen] at hrespelled
      rw [spellingsAfter_none helse] at hsame
      exact .ifElse (h.expr_self hI hcondition hnames.left)
        ((declaredName?_renames hbranch).trans hthen) hrespelled helse hsame
  | .elseBranch hbranch, _, _, .ifElse hcondition hthen hother helse hplaced, h, hnames => by
      have hrespelled := hbranch.respelled hI hplaced h hnames.right.right
      have hsame := hother.respelled_self hI h hnames.right.left
      rw [spellingsAfter_none helse] at hrespelled
      rw [spellingsAfter_none hthen] at hsame
      exact .ifElse (h.expr_self hI hcondition hnames.left) hthen hsame
        ((declaredName?_renames hbranch).trans helse) hrespelled
  | .loop hbody, _, _, .loop hcondition hnone hplaced, h, hnames => by
      have hrespelled := hbody.respelled hI hplaced h hnames.right
      rw [spellingsAfter_none hnone] at hrespelled
      exact .loop (h.expr_self hI hcondition hnames.left)
        ((declaredName?_renames hbody).trans hnone) hrespelled
  | .function hroutine, _, _, .function hfresh hplaced, h, hnames => by
      have hinside := h.declareSame hnames.head true
      rw [ite_self] at hinside
      exact .function (h.declarableSame hfresh hnames.head)
        (hroutine.respelled hI hplaced hinside hnames.tail)
  | .classDecl hmethods, _, _, .classDecl hfresh hplaced, h, hnames => by
      have hinside := h.declareSame hnames.head true
      rw [ite_self] at hinside
      exact .classDecl (h.declarableSame hfresh hnames.head)
        (hmethods.respelled hI hplaced hinside.inClass hnames.tail)

/-- Renaming a local variable gives the same statements in another spelling. -/
theorem RenamesAll.respelled (hI : ∀ id, I id id) {inside : Bool} {body body' : List Stmt} :
    RenamesAll x y inside body body' →
    ∀ {S : List Scope} {Γ : Spellings}, PlacedAll (Addressed hops bound) S body →
    Spelt x y x S Γ → (inside = true → Γ ≠ []) → Unused x y (Stmt.namesAll body) →
    RespelledAll I Γ body body'
  | .here hname, _, _, .cons (.var hfresh hinitializer) hrest, h, hinside, hnames => by
      subst hname
      have hlocal := hinside rfl
      have hdeclared := h.declarable hfresh hnames.left.head (.inr ⟨rfl, hlocal⟩)
      have hspelt := h.declare hnames.left.head (.inr ⟨rfl, hlocal⟩) true
      have hown := h.ownInitializer hI hlocal hinitializer hnames.left
      rw [if_pos rfl] at hspelt
      refine .cons (.var hdeclared ?_) (hrest.respelled hI hspelt hnames.right)
      rw [Token.rename, renamed, if_pos rfl]
      exact hown
  | .first hs, _, _, .cons hplaced hrest, h, _, hnames => by
      have hafter := h.after hnames.left
      rw [ite_self] at hafter
      exact .cons (hs.respelled hI hplaced h hnames.left)
        (hrest.respelled_self hI hafter hnames.right)
  | .later hbody, _, _, .cons hplaced hrest, h, hinside, hnames => by
      have hafter := h.after hnames.left
      rw [ite_self] at hafter
      have hs := hplaced.respelled_self hI h hnames.left
      refine .cons hs (hbody.respelled hI hrest hafter (fun hlocal => ?_) hnames.right)
      exact fun hnil => hinside hlocal (hs.tail.2.mp hnil)

theorem RenamesRoutine.respelled (hI : ∀ id, I id id) {r r' : Routine} : RenamesRoutine x y r r' →
    ∀ {S : List Scope} {Γ : Spellings}, PlacedRoutine (Addressed hops bound) S r →
    Spelt x y x S Γ → Unused x y r.names → RespelledRoutine I Γ r r'
  | .parameter hmem, _, _, .mk hnodup hbody, h, hnames => by
      obtain ⟨final, hparameters, hspelt⟩ := h.routine (.inr rfl) hnodup hnames.left
      rw [if_pos hmem] at hspelt
      exact .mk hparameters (hbody.respelled hI hspelt hnames.right)
  | .body hbody, _, _, .mk hnodup hplaced, h, hnames => by
      obtain ⟨final, hparameters, hspelt⟩ := h.routine (.inl rfl) hnodup hnames.left
      rw [ite_self] at hspelt
      simp only [Token.rename_self, List.map_id'] at hparameters
      exact .mk hparameters
        (hbody.respelled hI hplaced hspelt (fun _ => List.cons_ne_nil _ _) hnames.right)

theorem RenamesMethods.respelled (hI : ∀ id, I id id) {methods methods' : List Routine} :
    RenamesMethods x y methods methods' →
    ∀ {S : List Scope} {Γ : Spellings}, PlacedMethods (Addressed hops bound) S methods →
    Spelt x y x S Γ → Unused x y (Routine.namesAll methods) → RespelledMethods I Γ methods methods'
  | .first hmethod, _, _, .cons hplaced hrest, h, hnames =>
      .cons (hmethod.respelled hI hplaced h hnames.left)
        (hrest.respelled_self hI h hnames.right)
  | .later hmethods, _, _, .cons hplaced hrest, h, hnames =>
      .cons (hplaced.respelled_self hI h hnames.left)
        (hmethods.respelled hI hrest h hnames.right)
end

section Declared

variable {good : Token → Prop}

mutual
/-- What is renamed was declared under the old name. -/
theorem Renames.declared {s s' : Stmt} : Renames x y s s' → Tidy good s →
    ∃ t, good t ∧ t.lexeme = x
  | .block hbody, .block htidy => hbody.declared htidy
  | .ifThen hbranch, .ifThen _ htidy => hbranch.declared htidy
  | .thenBranch hbranch, .ifElse _ htidy _ _ => hbranch.declared htidy
  | .elseBranch hbranch, .ifElse _ _ _ htidy => hbranch.declared htidy
  | .loop hbody, .loop _ htidy => hbody.declared htidy
  | .function hroutine, .function htidy => hroutine.declared htidy
  | .classDecl hmethods, .classDecl _ htidy => hmethods.declared htidy

theorem RenamesAll.declared {inside : Bool} {body body' : List Stmt} :
    RenamesAll x y inside body body' → TidyAll good body → ∃ t, good t ∧ t.lexeme = x
  | .here hname, .cons (.var hgood) _ => ⟨_, hgood, hname⟩
  | .first hs, .cons htidy _ => hs.declared htidy
  | .later hbody, .cons _ htidy => hbody.declared htidy

theorem RenamesRoutine.declared {r r' : Routine} : RenamesRoutine x y r r' → TidyRoutine good r →
    ∃ t, good t ∧ t.lexeme = x
  | .parameter hmem, .mk _ hgood _ => by
      obtain ⟨t, ht, hname⟩ := List.mem_map.mp hmem
      exact ⟨t, hgood t ht, hname⟩
  | .body hbody, .mk _ _ htidy => hbody.declared htidy

theorem RenamesMethods.declared {methods methods' : List Routine} :
    RenamesMethods x y methods methods' → TidyMethods good methods → ∃ t, good t ∧ t.lexeme = x
  | .first hmethod, .cons htidy _ => hmethod.declared htidy
  | .later hmethods, .cons _ htidy => hmethods.declared htidy
end

end Declared

end Scripts

end ScriptLang
