/-
ScriptLang.Proofs.Binding.Walk — what a walk over a script changes.

`ScriptLang.Binding` walks the statements of a script with a state that is
passed along. `Walked` says what every walk does to this state, with or
without faults: the scopes are those after the statement, faults are only
added, and hop counts change only under the identities of the mentions that
were walked over. `Checked` says when an expression adds faults.

A walk over an expression is a walk over its mentions one by one. What is to
be known about it is a relation between the states before and after, and
`Threaded` asks for the mentions alone.

A statement may be any tree here. A declaration that stands as a branch or loop
body changes the scopes of what comes after it (`Stmt.declares`). The grammar
builds no such trees (`Tidy`), and then only declarations do (`scopesAfter`).
-/
import ScriptLang.Proofs.Binding.Placed
import ScriptLang.Proofs.Binding.Standing

namespace ScriptLang.Binding

/-! ## 1. Trees as the grammar builds them -/

section Tidy

variable (good : Token → Prop)

mutual
/-- Every declared name is a good one, and no branch and no loop body is itself a declaration. -/
inductive Tidy : Stmt → Prop where
  | expression {value} : Tidy (.expression value)
  | print {value} : Tidy (.print value)
  | var {name initializer} : good name → Tidy (.var name initializer)
  | block {body} : TidyAll body → Tidy (.block body)
  | ifThen {condition thenBranch} : declaredName? thenBranch = none → Tidy thenBranch →
      Tidy (.ifThen condition thenBranch)
  | ifElse {condition thenBranch elseBranch} : declaredName? thenBranch = none → Tidy thenBranch →
      declaredName? elseBranch = none → Tidy elseBranch →
      Tidy (.ifElse condition thenBranch elseBranch)
  | loop {condition body} : declaredName? body = none → Tidy body → Tidy (.loop condition body)
  | function {routine} : TidyRoutine routine → Tidy (.function routine)
  | ret {keyword value} : Tidy (.ret keyword value)
  | classDecl {name methods} : good name → TidyMethods methods → Tidy (.classDecl name methods)

/-- Statements in a row. -/
inductive TidyAll : List Stmt → Prop where
  | nil : TidyAll []
  | cons {s rest} : Tidy s → TidyAll rest → TidyAll (s :: rest)

/-- The declaration of a function or method. -/
inductive TidyRoutine : Routine → Prop where
  | mk {name parameters body} : good name → (∀ t ∈ parameters, good t) → TidyAll body →
      TidyRoutine ⟨name, parameters, body⟩

/-- The methods of a class. -/
inductive TidyMethods : List Routine → Prop where
  | nil : TidyMethods []
  | cons {method rest} : TidyRoutine method → TidyMethods rest → TidyMethods (method :: rest)
end

end Tidy

/-! ## 2. Every walk -/

/-- What walking over some mentions does to the state. -/
structure Walked (ms : List Mention) (scopes : List Scope) (s s' : State) : Prop where
  scopes : s'.scopes = scopes
  initializing : ∀ name ∈ s'.initializing, name ∈ s.initializing
  faults : ∃ more, s'.faults = s.faults ++ more ∧ ∀ f ∈ more, f.isStatic = true
  hops : ∀ id, (∀ m ∈ ms, m.id ≠ id) → s'.hops.get? id = s.hops.get? id

namespace Walked

variable {ms ms' : List Mention} {S S' : List Scope} {s s' s'' : State}

theorem refl (ms : List Mention) (s : State) : Walked ms s.scopes s s :=
  ⟨rfl, fun _ h => h, ⟨[], by simp, by simp⟩, fun _ _ => rfl⟩

theorem trans (h : Walked ms S s s') (h' : Walked ms' S' s' s'') :
    Walked (ms ++ ms') S' s s'' := by
  obtain ⟨more, hmore, hstatic⟩ := h.faults
  obtain ⟨more', hmore', hstatic'⟩ := h'.faults
  refine ⟨h'.scopes, fun name hname => h.initializing name (h'.initializing name hname), ?_, ?_⟩
  · refine ⟨more ++ more', by rw [hmore', hmore, List.append_assoc], ?_⟩
    intro f hf
    rcases List.mem_append.mp hf with hf | hf
    · exact hstatic f hf
    · exact hstatic' f hf
  · intro id hid
    rw [h'.hops id fun m hm => hid m (List.mem_append_right _ hm),
      h.hops id fun m hm => hid m (List.mem_append_left _ hm)]

theorem weaken (h : Walked ms S s s') (hsub : ∀ m ∈ ms, m ∈ ms') : Walked ms' S s s' :=
  { h with hops := fun id hid => h.hops id fun m hm => hid m (hsub m hm) }

/-- A walk that ends without faults began without faults. -/
theorem clean (h : Walked ms S s s') (hclean : s'.faults = []) : s.faults = [] := by
  obtain ⟨more, hmore, -⟩ := h.faults
  rw [hclean] at hmore
  exact (List.append_eq_nil_iff.mp hmore.symm).1

theorem complain (ms : List Mention) (s : State) (token : Token) (cause : BindingCause) :
    Walked ms s.scopes s (s.complain token cause) := by
  refine ⟨rfl, fun _ h => h, ⟨[.binding token.site cause], rfl, ?_⟩, fun _ _ => rfl⟩
  intro f hf
  rw [List.mem_singleton.mp hf]
  rfl

theorem note (s : State) (m : Mention) (name : String) :
    Walked [m] s.scopes s (s.note m.id name) := by
  unfold State.note
  split
  · refine ⟨rfl, fun _ h => h, ⟨[], by simp, by simp⟩, ?_⟩
    intro id hid
    rw [HopTable.get?_insert, if_neg fun heq => hid m (List.mem_singleton.mpr rfl) heq.symm]
  · exact refl [m] s

end Walked

/-! ## 3. Expressions, mention by mention -/

/-- A relation between the states before and after some mentions that holds of each mention alone
and of several in a row, in whatever order they are listed. -/
structure Threaded (ctx : Context) (R : List Mention → State → State → Prop) : Prop where
  refl : ∀ s, R [] s s
  trans : ∀ {ms ms' s s' s''}, R ms s s' → R ms' s' s'' → R (ms ++ ms') s s''
  perm : ∀ {ms ms' s s'}, R ms s s' → ms.Perm ms' → R ms' s s'
  read : ∀ id name s, R [⟨.read, id, name⟩] s (expr ctx (.read id name) s)
  assign : ∀ id name s, R [⟨.assign, id, name⟩] s (s.note id name.lexeme)
  self : ∀ id keyword s, R [⟨.self, id, keyword⟩] s (expr ctx (.self id keyword) s)

section Threaded

variable {ctx : Context} {R : List Mention → State → State → Prop}

mutual
theorem Threaded.expr (h : Threaded ctx R) : ∀ (e : Expr) (s : State),
    R e.mentions s (Binding.expr ctx e s)
  | .literal _ _, s => h.refl s
  | .group _ inner, s => Threaded.expr h inner s
  | .unary _ _ operand, s => Threaded.expr h operand s
  | .binary _ left _ right, s => h.trans (Threaded.expr h left s) (Threaded.expr h right _)
  | .logical _ left _ right, s => h.trans (Threaded.expr h left s) (Threaded.expr h right _)
  | .read id name, s => h.read id name s
  -- An assignment is listed before its value and walked over after it.
  | .assign id name value, s =>
      h.perm (h.trans (Threaded.expr h value s) (h.assign id name _))
        (List.perm_append_singleton _ _)
  | .call _ callee _ arguments, s =>
      h.trans (Threaded.expr h callee s) (Threaded.exprs h arguments _)
  | .property _ object _, s => Threaded.expr h object s
  | .setProperty _ object _ value, s =>
      h.perm (h.trans (Threaded.expr h value s) (Threaded.expr h object _)) List.perm_append_comm
  | .self id keyword, s => h.self id keyword s

theorem Threaded.exprs (h : Threaded ctx R) : ∀ (es : List Expr) (s : State),
    R (Expr.mentionsAll es) s (Binding.exprs ctx es s)
  | [], s => h.refl s
  | e :: rest, s => h.trans (Threaded.expr h e s) (Threaded.exprs h rest _)
end

theorem Threaded.exprOption (h : Threaded ctx R) (e : Option Expr) (s : State) :
    R (Expr.mentionsOption e) s (Binding.exprOption ctx e s) := by
  cases e with
  | none => exact h.refl s
  | some e => exact h.expr e s

end Threaded

theorem threaded_walked (ctx : Context) :
    Threaded ctx fun ms s s' => Walked ms s.scopes s s' where
  refl s := Walked.refl [] s
  trans h h' := by
    rw [h.scopes] at h'
    exact h.trans h'
  perm h hperm := h.weaken fun _ hm => hperm.subset hm
  read id name s := by
    rw [expr]
    split
    · exact (Walked.complain [] s name .ownInitializer).trans
        (Walked.note (s.complain name .ownInitializer) ⟨.read, id, name⟩ name.lexeme)
    · exact Walked.note s ⟨.read, id, name⟩ name.lexeme
  assign id name s := Walked.note s ⟨.assign, id, name⟩ name.lexeme
  self id keyword s := by
    rw [expr]
    split
    · exact Walked.note s ⟨.self, id, keyword⟩ keyword.lexeme
    · exact Walked.complain _ s keyword .strayThis

theorem walked_expr (ctx : Context) (e : Expr) (s : State) :
    Walked e.mentions s.scopes s (expr ctx e s) :=
  (threaded_walked ctx).expr e s

theorem walked_exprOption (ctx : Context) (e : Option Expr) (s : State) :
    Walked (Expr.mentionsOption e) s.scopes s (exprOption ctx e s) :=
  (threaded_walked ctx).exprOption e s

/-! ## 4. Faults of expressions -/

/-- What the walk asks of a mention. -/
structure Allowed (ctx : Context) (st : State) (m : Mention) : Prop where
  read : m.role = .read → st.unready m.token.lexeme = false
  self : m.role = .self → ctx.insideClass = true

/-- A walk over mentions finds a fault exactly when one of them is not allowed, and does not change
what can be read. -/
structure Checked (ctx : Context) (ms : List Mention) (s s' : State) : Prop where
  unready : s'.unready = s.unready
  faults : s'.faults = [] ↔ s.faults = [] ∧ ∀ m ∈ ms, Allowed ctx s m

section Checked

variable {ctx : Context} {ms ms' : List Mention} {s s' s'' : State}

theorem Checked.trans (h : Checked ctx ms s s') (h' : Checked ctx ms' s' s'') :
    Checked ctx (ms ++ ms') s s'' := by
  have hallowed : ∀ m, Allowed ctx s' m ↔ Allowed ctx s m := by
    intro m
    constructor
    · intro hm
      exact ⟨h.unready ▸ hm.read, hm.self⟩
    · intro hm
      exact ⟨h.unready ▸ hm.read, hm.self⟩
  refine ⟨h'.unready.trans h.unready, ?_⟩
  rw [h'.faults, h.faults]
  simp only [hallowed, List.mem_append, or_imp, forall_and, and_assoc]

theorem unready_complain (s : State) (token : Token) (cause : BindingCause) :
    (s.complain token cause).unready = s.unready := rfl

theorem unready_note (s : State) (id : Nat) (name : String) :
    (s.note id name).unready = s.unready := by
  unfold State.note
  split <;> rfl

theorem faults_note (s : State) (id : Nat) (name : String) :
    (s.note id name).faults = s.faults := by
  unfold State.note
  split <;> rfl

theorem checked_read (id : Nat) (name : Token) (s : State) :
    Checked ctx [⟨.read, id, name⟩] s (expr ctx (.read id name) s) := by
  cases hunready : s.unready name.lexeme with
  | true =>
    have hbad : ¬ Allowed ctx s ⟨.read, id, name⟩ := by
      intro h
      simp [h.read rfl] at hunready
    exact ⟨by simp [expr, hunready, unready_note, unready_complain],
      by simp [expr, hunready, faults_note, State.complain, hbad]⟩
  | false =>
    have hgood : Allowed ctx s ⟨.read, id, name⟩ := ⟨fun _ => hunready, by simp⟩
    exact ⟨by simp [expr, hunready, unready_note], by simp [expr, hunready, faults_note, hgood]⟩

theorem checked_assign (id : Nat) (name : Token) (s : State) :
    Checked ctx [⟨.assign, id, name⟩] s (s.note id name.lexeme) := by
  have hgood : Allowed ctx s ⟨.assign, id, name⟩ := ⟨by simp, by simp⟩
  exact ⟨unready_note s id name.lexeme, by simp [faults_note, hgood]⟩

theorem checked_self (id : Nat) (keyword : Token) (s : State) :
    Checked ctx [⟨.self, id, keyword⟩] s (expr ctx (.self id keyword) s) := by
  cases hinside : ctx.insideClass with
  | true =>
    have hgood : Allowed ctx s ⟨.self, id, keyword⟩ := ⟨by simp, fun _ => hinside⟩
    exact ⟨by simp [expr, hinside, unready_note], by simp [expr, hinside, faults_note, hgood]⟩
  | false =>
    have hbad : ¬ Allowed ctx s ⟨.self, id, keyword⟩ := by
      intro h
      simp [h.self rfl] at hinside
    exact ⟨by simp [expr, hinside, unready_complain],
      by simp [expr, hinside, State.complain, hbad]⟩

theorem threaded_checked (ctx : Context) : Threaded ctx (Checked ctx) where
  refl s := ⟨rfl, by simp⟩
  trans h h' := h.trans h'
  perm h hperm := ⟨h.unready, by simpa only [hperm.mem_iff] using h.faults⟩
  read := checked_read
  assign := checked_assign
  self := checked_self

end Checked

/-! ## 5. Declarations -/

section Declarations

variable {s s' : State}

theorem hops_declare (s : State) (name : Token) : (s.declare name).hops = s.hops := by
  unfold State.declare
  split
  · rfl
  · split <;> rfl

theorem hops_define (s : State) (name : Token) : (s.define name).hops = s.hops := by
  unfold State.define
  split <;> rfl

theorem faults_define (s : State) (name : Token) : (s.define name).faults = s.faults := by
  unfold State.define
  split <;> rfl

/-- A name that may be declared again is readable afterwards, whatever happens in between. -/
theorem scopes_define_declare (name : Token) (h : s'.scopes = (s.declare name).scopes) :
    (s'.define name).scopes = declared s.scopes name.lexeme true := by
  unfold State.declare at h
  unfold State.define
  cases hscopes : s.scopes with
  | nil =>
    simp only [hscopes] at h
    simp only [h, declared]
  | cons scope outer =>
    simp only [hscopes] at h
    split at h
    · have hsame : s'.scopes = scope :: outer := h.trans hscopes
      simp only [hsame, declared]
    · simp only [h, declared, NameMap.insert_insert]

/-- A name whose initializer is being walked is the only one that is remembered anew. -/
theorem initializing_define_declare (name : Token) (hscopes : s'.scopes = (s.declare name).scopes)
    (h : ∀ other ∈ s'.initializing, other ∈ (s.declare name).initializing) :
    ∀ other ∈ (s'.define name).initializing, other ∈ s.initializing := by
  intro other hother
  unfold State.declare at hscopes h
  unfold State.define at hother
  cases hopen : s.scopes with
  | nil =>
    simp only [hopen] at hscopes h
    simp only [hscopes, List.mem_filter, bne_iff_ne] at hother
    rcases List.mem_cons.mp (h other hother.1) with rfl | hmem
    · exact absurd rfl hother.2
    · exact hmem
  | cons scope outer =>
    simp only [hopen] at hscopes h
    split at hscopes
    · rename_i hcontains
      have hsame : s'.scopes = scope :: outer := hscopes.trans hopen
      simp only [hsame] at hother
      simp only [hcontains, if_true] at h
      exact h other hother
    · rename_i hcontains
      simp only [hscopes] at hother
      simp only [hcontains] at h
      exact h other hother

/-- A declaration adds no fault but the one about a second declaration. -/
theorem faults_declare (s : State) (name : Token) :
    ∃ more, (s.declare name).faults = s.faults ++ more ∧ (∀ f ∈ more, f.isStatic = true) ∧
      (more = [] → Fresh s.scopes name.lexeme ∧
        (s.declare name).scopes = declared s.scopes name.lexeme false) := by
  unfold State.declare
  cases hscopes : s.scopes with
  | nil => exact ⟨[], by simp, by simp, fun _ => ⟨by simp [Fresh], by simp [declared]⟩⟩
  | cons scope outer =>
    by_cases hcontains : scope.contains name.lexeme = true
    · simp only [hcontains, if_true]
      refine ⟨[.binding name.site .redeclared], rfl, ?_, fun h => absurd h (by simp)⟩
      intro f hf
      rw [List.mem_singleton.mp hf]
      rfl
    · simp only [hcontains]
      refine ⟨[], by simp, by simp, fun _ => ⟨?_, rfl⟩⟩
      intro scope' hscope'
      obtain rfl : scope = scope' := by simpa using hscope'
      simpa using hcontains

/-- The walk from the declaration of a name to its definition. -/
theorem Walked.around {ms : List Mention} (name : Token)
    (h : Walked ms (s.declare name).scopes (s.declare name) s') :
    Walked ms (declared s.scopes name.lexeme true) s (s'.define name) := by
  obtain ⟨more, hmore, hstatic, -⟩ := faults_declare s name
  obtain ⟨more', hmore', hstatic'⟩ := h.faults
  refine ⟨scopes_define_declare name h.scopes,
    initializing_define_declare name h.scopes h.initializing, ⟨more ++ more', ?_, ?_⟩, ?_⟩
  · rw [faults_define, hmore', hmore, List.append_assoc]
  · intro f hf
    rcases List.mem_append.mp hf with hf | hf
    · exact hstatic f hf
    · exact hstatic' f hf
  · intro id hid
    rw [hops_define, h.hops id hid, hops_declare]

theorem Walked.introduce (ms : List Mention) (s : State) (name : Token) :
    Walked ms (declared s.scopes name.lexeme true) s (s.introduce name) :=
  Walked.around name (Walked.refl ms (s.declare name))

/-- Parameters are declared one after the other in the innermost scope. -/
theorem walked_parameters (parameters : List Token) (scope : Scope) (outer : List Scope)
    (hscopes : s.scopes = scope :: outer) :
    Walked [] (parameters.foldl (fun scope t => scope.insert t.lexeme true) scope :: outer) s
      (parameters.foldl State.introduce s) := by
  induction parameters generalizing s scope with
  | nil =>
    rw [List.foldl_nil, List.foldl_nil, ← hscopes]
    exact Walked.refl [] s
  | cons t rest ih =>
    have hfirst := Walked.introduce [] s t
    rw [hscopes, declared] at hfirst
    exact hfirst.trans (ih (scope.insert t.lexeme true) hfirst.scopes)

theorem Walked.enter (ms : List Mention) (s : State) (scope : Scope) :
    Walked ms (scope :: s.scopes) s (s.enter scope) :=
  ⟨rfl, fun _ h => h, ⟨[], by simp [State.enter], by simp⟩, fun _ _ => rfl⟩

theorem Walked.leave {ms : List Mention} {S S' : List Scope} (h : Walked ms S' s s')
    (htail : S'.tail = S) : Walked ms S s s'.leave := by
  refine ⟨?_, h.initializing, h.faults, h.hops⟩
  rw [State.leave, h.scopes]
  exact htail

end Declarations

/-! ## 6. Statements -/

/-- The scopes after some names were declared. -/
def declaredAll (S : List Scope) (names : List String) : List Scope :=
  names.foldl (declared · · true) S

theorem declaredAll_append (S : List Scope) (names names' : List String) :
    declaredAll S (names ++ names') = declaredAll (declaredAll S names) names' :=
  List.foldl_append

/-- Declarations concern the innermost scope only. -/
theorem tail_declaredAll (names : List String) (S : List Scope) :
    (declaredAll S names).tail = S.tail := by
  induction names generalizing S with
  | nil => rfl
  | cons name rest ih =>
    show (declaredAll (declared S name true) rest).tail = S.tail
    rw [ih]
    cases S <;> rfl

/-- At the top level no scope is opened for good. -/
theorem declaredAll_nil (names : List String) : declaredAll [] names = [] := by
  induction names with
  | nil => rfl
  | cons name rest ih => exact ih

theorem walked_ret (ctx : Context) (keyword : Token) (value : Option Expr) (st : State) :
    Walked (Expr.mentionsOption value) st.scopes st (stmt ctx (.ret keyword value) st) := by
  have hcomplain : ∀ (p : Prop) [Decidable p] (cause : BindingCause) (s : State),
      Walked [] s.scopes s (if p then s.complain keyword cause else s) := by
    intro p _ cause s
    split
    · exact Walked.complain [] s keyword cause
    · exact Walked.refl [] s
  have hstray := hcomplain (ctx.routine = .script) .topLevelReturn st
  have hvalue := hcomplain (value.isSome && ctx.routine = .initializer) .initializerValue
    (if ctx.routine = .script then st.complain keyword .topLevelReturn else st)
  rw [hstray.scopes] at hvalue
  have hrest := walked_exprOption ctx value
    (if value.isSome && ctx.routine = .initializer then
      (if ctx.routine = .script then st.complain keyword .topLevelReturn else st).complain keyword
        .initializerValue
    else if ctx.routine = .script then st.complain keyword .topLevelReturn else st)
  rw [hvalue.scopes] at hrest
  exact (hstray.trans hvalue).trans hrest

/-- The body of a routine is walked in the scope of its parameters. -/
theorem Walked.inRoutine {ms : List Mention} (parameters : List Token) (names : List String)
    {st st' : State}
    (h : Walked ms (declaredAll (parameters.foldl State.introduce (st.enter .empty)).scopes names)
      (parameters.foldl State.introduce (st.enter .empty)) st') :
    Walked ms st.scopes st st'.leave := by
  have henter := Walked.enter [] st .empty
  have hparameters := walked_parameters parameters .empty st.scopes henter.scopes
  refine ((henter.trans hparameters).trans h).leave ?_
  rw [tail_declaredAll, hparameters.scopes]
  rfl

mutual
theorem walked_statement (ctx : Context) : ∀ (s : Stmt) (st : State),
    Walked s.mentions (declaredAll st.scopes s.declares) st (stmt ctx s st)
  | .expression value, st => walked_expr ctx value st
  | .print value, st => walked_expr ctx value st
  | .var _ initializer, _ => Walked.around _ (walked_exprOption ctx initializer _)
  | .block body, st => by
      have hbody := walked_statements ctx body (st.enter .empty)
      exact ((Walked.enter [] st .empty).trans hbody).leave (tail_declaredAll _ _)
  | .ifThen condition thenBranch, st => by
      have hcondition := walked_expr ctx condition st
      have hthen := walked_statement ctx thenBranch (expr ctx condition st)
      rw [hcondition.scopes] at hthen
      exact hcondition.trans hthen
  | .ifElse condition thenBranch elseBranch, st => by
      have hcondition := walked_expr ctx condition st
      have hthen := walked_statement ctx thenBranch (expr ctx condition st)
      rw [hcondition.scopes] at hthen
      have helse := walked_statement ctx elseBranch (stmt ctx thenBranch (expr ctx condition st))
      rw [hthen.scopes, ← declaredAll_append] at helse
      exact (hcondition.trans hthen).trans helse
  | .loop condition body, st => by
      have hcondition := walked_expr ctx condition st
      have hbody := walked_statement ctx body (expr ctx condition st)
      rw [hcondition.scopes] at hbody
      exact hcondition.trans hbody
  | .function ⟨name, parameters, body⟩, st => by
      have hname := Walked.introduce [] st name
      have hroutine := Walked.inRoutine parameters _
        (walked_statements { ctx with routine := .function } body
          (parameters.foldl State.introduce ((st.introduce name).enter .empty)))
      rw [hname.scopes] at hroutine
      exact hname.trans hroutine
  | .ret keyword value, st => walked_ret ctx keyword value st
  | .classDecl name methods, st => by
      have hname := Walked.introduce [] st name
      have hscope := Walked.enter [] (st.introduce name) thisScope
      have hmethods := walked_methods methods ((st.introduce name).enter thisScope)
      rw [hscope.scopes, hname.scopes] at hmethods
      exact ((hname.trans hscope).trans hmethods).leave rfl

theorem walked_statements (ctx : Context) : ∀ (body : List Stmt) (st : State),
    Walked (Stmt.mentionsAll body) (declaredAll st.scopes (Stmt.declaresAll body)) st
      (stmts ctx body st)
  | [], st => Walked.refl [] st
  | s :: rest, st => by
      have hfirst := walked_statement ctx s st
      have hlater := walked_statements ctx rest (stmt ctx s st)
      rw [hfirst.scopes, ← declaredAll_append] at hlater
      exact hfirst.trans hlater

theorem walked_method : ∀ (r : Routine) (st : State),
    Walked r.mentions st.scopes st (routine r st)
  | ⟨name, parameters, body⟩, _ =>
      Walked.inRoutine parameters _
        (walked_statements ⟨Enclosing.ofMethod ⟨name, parameters, body⟩, true⟩ body _)

theorem walked_methods : ∀ (methods : List Routine) (st : State),
    Walked (Routine.mentionsAll methods) st.scopes st (routines methods st)
  | [], st => Walked.refl [] st
  | method :: rest, st => by
      have hfirst := walked_method method st
      have hlater := walked_methods rest (routine method st)
      rw [hfirst.scopes] at hlater
      exact hfirst.trans hlater
end

/-! ## 7. Statements as the grammar builds them -/

section Statements

variable {good : Token → Prop}

/-- Branches that are no declarations declare nothing. -/
theorem declares_of_tidy {s : Stmt} : Tidy good s → s.declares = (declaredName? s).toList
  | .expression => rfl
  | .print => rfl
  | .var _ => rfl
  | .block _ => rfl
  | .ifThen hname h => by
      rw [Stmt.declares, declares_of_tidy h, hname]
      rfl
  | .ifElse hname h hname' h' => by
      rw [Stmt.declares, declares_of_tidy h, declares_of_tidy h', hname, hname']
      rfl
  | .loop hname h => by
      rw [Stmt.declares, declares_of_tidy h, hname]
      rfl
  | .function _ => rfl
  | .ret => rfl
  | .classDecl _ _ => rfl

theorem declaredAll_of_tidy {s : Stmt} (h : Tidy good s) (S : List Scope) :
    declaredAll S s.declares = scopesAfter S s := by
  rw [declares_of_tidy h]
  unfold scopesAfter
  cases declaredName? s <;> rfl

theorem declaredAll_of_tidyAll {body : List Stmt} (h : TidyAll good body) (S : List Scope) :
    declaredAll S (Stmt.declaresAll body) = body.foldl scopesAfter S := by
  induction body generalizing S with
  | nil => rfl
  | cons s rest ih =>
    cases h with
    | cons h hrest =>
      rw [Stmt.declaresAll_cons, declaredAll_append, declaredAll_of_tidy h, ih hrest]
      rfl

theorem walked_stmt {s : Stmt} (h : Tidy good s) (ctx : Context) (st : State) :
    Walked s.mentions (scopesAfter st.scopes s) st (stmt ctx s st) := by
  rw [← declaredAll_of_tidy h]
  exact walked_statement ctx s st

theorem walked_stmts {body : List Stmt} (h : TidyAll good body) (ctx : Context) (st : State) :
    Walked (Stmt.mentionsAll body) (body.foldl scopesAfter st.scopes) st (stmts ctx body st) := by
  rw [← declaredAll_of_tidyAll h]
  exact walked_statements ctx body st

end Statements

end ScriptLang.Binding
