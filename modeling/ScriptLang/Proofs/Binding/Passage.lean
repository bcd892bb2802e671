/-
ScriptLang.Proofs.Binding.Passage — the walk comes by every place.

A place of a script has its surroundings (`ScriptLang.Proofs.Binding.Standing`),
and the walk has its state. `State.At` says that the two agree: each open scope
holds exactly the names that are declared there so far, all of them readable,
and no variable is being initialized. It is kept by every statement, whether
or not faults are found.

`passes_row` is the main statement: the walk over a script reaches every row
in a state that agrees with its surroundings, and what it does before and
after concerns other mentions than those of the row.
-/
import Mathlib.Data.List.Forall2
import ScriptLang.Proofs.Binding.Walk

namespace ScriptLang.Binding

/-! ## 1. The state at a place -/

/-- A scope holds exactly these names, and all of them can be read. -/
def Holds (scope : Scope) (names : List String) : Prop :=
  ∀ name, scope.get? name = if name ∈ names then some true else none

/-- The state of the walk agrees with what is around a place. -/
structure State.At (st : State) (around : Surroundings) : Prop where
  scopes : List.Forall₂ Holds st.scopes around.scopes
  initializing : st.initializing = []

/-- What the walk knows about the functions and methods around a place. -/
def contextOf : List Host → Context
  | [] => .top
  | .function :: outer => { contextOf outer with routine := .function }
  | .method name :: _ => ⟨if name = initializerName then .initializer else .method, true⟩

/-- A method is walked over as its surroundings say. -/
theorem routine_eq (method : Routine) (outer : List Host) (st : State) :
    routine method st = (stmts (contextOf (.method method.name.lexeme :: outer)) method.body
      (method.parameters.foldl State.introduce (st.enter .empty))).leave := by
  cases method
  simp [routine, contextOf, Enclosing.ofMethod, Routine.isInitializer]

/-- The walk is inside a class when some method is around. -/
theorem insideClass_contextOf (around : Surroundings) :
    (contextOf around.hosts).insideClass = true ↔ around.InMethod := by
  unfold Surroundings.InMethod
  induction around.hosts with
  | nil => simp [contextOf, Context.top]
  | cons host outer ih =>
    cases host with
    | function => simp [contextOf, ih]
    | method name => simp [contextOf]

theorem routine_contextOf_eq_script (hosts : List Host) :
    (contextOf hosts).routine = .script ↔ hosts = [] := by
  cases hosts with
  | nil => simp [contextOf, Context.top]
  | cons host outer =>
    cases host with
    | function => simp [contextOf]
    | method name => by_cases h : name = initializerName <;> simp [contextOf, h]

theorem routine_contextOf_eq_initializer (hosts : List Host) :
    (contextOf hosts).routine = .initializer ↔ hosts.head? = some (.method initializerName) := by
  cases hosts with
  | nil => simp [contextOf, Context.top]
  | cons host outer =>
    cases host with
    | function => simp [contextOf]
    | method name => by_cases h : name = initializerName <;> simp [contextOf, h]

theorem holds_empty : Holds .empty [] := by
  intro name
  simp

theorem Holds.insert {scope : Scope} {names : List String} (h : Holds scope names)
    (name : String) : Holds (scope.insert name true) (names ++ [name]) := by
  intro other
  rw [NameMap.get?_insert, h other]
  by_cases heq : other = name <;> simp [heq]

theorem Holds.contains_iff {scope : Scope} {names : List String} (h : Holds scope names)
    (name : String) : scope.contains name = true ↔ name ∈ names := by
  rw [NameMap.contains, h name]
  by_cases hmem : name ∈ names <;> simp [hmem]

/-- Declared names are held by the innermost scope. -/
theorem holds_declaredAll {S : List Scope} {scopes : List (List String)}
    (h : List.Forall₂ Holds S scopes) (names : List String) :
    List.Forall₂ Holds (declaredAll S names) (scopes.modifyHead (· ++ names)) := by
  induction names generalizing S scopes with
  | nil => cases h <;> simp_all [declaredAll]
  | cons name rest ih =>
    cases h with
    | nil => simp [declaredAll_nil]
    | @cons scope declared outer outers hscope houter =>
      have hrest := ih (.cons (hscope.insert name) houter)
      rw [List.modifyHead_cons, List.append_assoc] at hrest
      exact hrest

namespace State.At

variable {st st' : State} {around : Surroundings} {ctx : Context}

/-- A walk over declarations goes on in the same scope. -/
theorem walked {ms : List Mention} {names : List String} (h : st.At around)
    (hwalk : Walked ms (declaredAll st.scopes names) st st') :
    st'.At (around.declare names) where
  scopes := by
    rw [hwalk.scopes]
    exact holds_declaredAll h.scopes names
  initializing := by
    have hnone := hwalk.initializing
    rw [h.initializing] at hnone
    simpa [List.eq_nil_iff_forall_not_mem] using hnone

theorem same {ms : List Mention} (h : st.At around) (hwalk : Walked ms st.scopes st st') :
    st'.At around := by
  have hnames : Walked ms (declaredAll st.scopes []) st st' := hwalk
  simpa using h.walked hnames

theorem expr (h : st.At around) (e : Expr) : (Binding.expr ctx e st).At around :=
  h.same (walked_expr ctx e st)

theorem stmt (h : st.At around) (s : Stmt) :
    (Binding.stmt ctx s st).At (around.declare s.declares) :=
  h.walked (walked_statement ctx s st)

theorem complainIf (h : st.At around) (p : Prop) [Decidable p] (token : Token)
    (cause : BindingCause) : (if p then st.complain token cause else st).At around := by
  split
  · exact ⟨h.scopes, h.initializing⟩
  · exact h

theorem introduce (h : st.At around) (name : Token) :
    (st.introduce name).At (around.declare [name.lexeme]) := by
  have hwalk : Walked [] (declaredAll st.scopes [name.lexeme]) st (st.introduce name) :=
    Walked.introduce [] st name
  exact h.walked hwalk

theorem parameters (h : st.At around) (parameters : List Token) :
    (parameters.foldl State.introduce st).At (around.declare (parameters.map Token.lexeme)) := by
  induction parameters generalizing st around with
  | nil => simpa using h
  | cons t rest ih =>
    have hrest := ih (h.introduce t)
    rw [← Surroundings.declare_append] at hrest
    exact hrest

theorem enter {scope : Scope} {names : List String} (h : st.At around)
    (hscope : Holds scope names) : (st.enter scope).At (around.enter names) :=
  ⟨.cons hscope h.scopes, h.initializing⟩

/-- At the start of a body. -/
theorem call (h : st.At around) (host : Host) (parameters : List Token) :
    (parameters.foldl State.introduce (st.enter .empty)).At (around.call host parameters) := by
  have hstart := (h.enter holds_empty).parameters parameters
  exact ⟨by simpa [Surroundings.enter, Surroundings.call] using hstart.scopes, hstart.initializing⟩

/-- At the start of the methods of a class. -/
theorem inClass (h : st.At around) (name : Token) :
    ((st.introduce name).enter thisScope).At (around.inClass name) := by
  have hself : Holds thisScope [selfName] := holds_empty.insert selfName
  exact (h.introduce name).enter hself

end State.At

/-! ## 2. The walk before and after a row -/

theorem Walked.exact {ms : List Mention} {S : List Scope} {s s' : State} (h : Walked ms S s s') :
    Walked ms s'.scopes s s' := by
  rw [h.scopes]
  exact h

theorem Walked.close (s : State) : Walked [] s.scopes.tail s s.leave :=
  (Walked.refl [] s).leave rfl

/-- To the start of a body. -/
theorem Walked.toBody (st : State) (parameters : List Token) :
    Walked [] (parameters.foldl State.introduce (st.enter .empty)).scopes st
      (parameters.foldl State.introduce (st.enter .empty)) :=
  ((Walked.enter [] st .empty).trans (walked_parameters parameters .empty st.scopes rfl)).exact

/-- The walk over a script, from the hop counts that are known before. -/
def walk (script : List Stmt) (hops : HopTable) : State :=
  stmts .top script ⟨[], [], hops, []⟩

/-- The walk over the script reaches a row in the state `st`, which agrees with the surroundings of
the row. -/
structure Passes (script : List Stmt) (hops : HopTable) (around : Surroundings) (row : List Stmt)
    (before after : List Mention) (st : State) : Prop where
  mentions : Stmt.mentionsAll script = before ++ Stmt.mentionsAll row ++ after
  state : st.At around
  reached : Walked before st.scopes ⟨[], [], hops, []⟩ st
  left : Walked after [] (stmts (contextOf around.hosts) row st) (walk script hops)

section Passes

variable {script : List Stmt} {hops : HopTable} {around around' : Surroundings}
variable {before after ms ms' : List Mention} {st st' : State} {s : Stmt} {later row : List Stmt}
variable {S : List Scope}

theorem passes_script (script : List Stmt) (hops : HopTable) :
    Passes script hops .outside script [] [] ⟨[], [], hops, []⟩ := by
  have hwalk := walked_statements .top script ⟨[], [], hops, []⟩
  rw [declaredAll_nil] at hwalk
  have hend := Walked.refl [] (walk script hops)
  have hclosed : (walk script hops).scopes = [] := hwalk.scopes
  rw [hclosed] at hend
  exact ⟨by simp, ⟨.nil, rfl⟩, Walked.refl [] _, hend⟩

theorem Passes.rest (h : Passes script hops around (s :: later) before after st) :
    Passes script hops (around.declare s.declares) later (before ++ s.mentions) after
      (stmt (contextOf around.hosts) s st) where
  mentions := by
    rw [h.mentions, Stmt.mentionsAll]
    simp
  state := h.state.stmt s
  reached := (h.reached.trans (walked_statement (contextOf around.hosts) s st)).exact
  left := h.left

/-- From a statement to a row inside it, with what is walked over between the two. -/
theorem Passes.inside (h : Passes script hops around (s :: later) before after st)
    (hmentions : s.mentions = ms ++ Stmt.mentionsAll row ++ ms') (hstate : st'.At around')
    (hin : Walked ms st'.scopes st st')
    (hout : Walked ms' S (stmts (contextOf around'.hosts) row st')
      (stmt (contextOf around.hosts) s st)) :
    Passes script hops around' row (before ++ ms) (ms' ++ Stmt.mentionsAll later ++ after) st' where
  mentions := by
    rw [h.mentions, Stmt.mentionsAll, hmentions]
    simp
  state := hstate
  reached := h.reached.trans hin
  left := (hout.trans (walked_statements _ later _)).trans h.left

/-- The walk over the methods of a class comes by each of them. -/
theorem walked_toMethod {method : Routine} {methods : List Routine} (hmem : method ∈ methods)
    (st : State) : ∃ ms ms' st', Routine.mentionsAll methods = ms ++ method.mentions ++ ms' ∧
      Walked ms st.scopes st st' ∧
      Walked ms' st.scopes (routine method st') (routines methods st) := by
  induction methods generalizing st with
  | nil => simp at hmem
  | cons first rest ih =>
    have hfirst := walked_method first st
    rcases List.mem_cons.mp hmem with rfl | hmem
    · have hrest := walked_methods rest (routine method st)
      rw [hfirst.scopes] at hrest
      exact ⟨[], _, st, by simp [Routine.mentionsAll], Walked.refl [] st, hrest⟩
    · obtain ⟨ms, ms', st', hmentions, hin, hout⟩ := ih hmem (routine first st)
      rw [hfirst.scopes] at hin hout
      exact ⟨first.mentions ++ ms, ms', st', by simp [Routine.mentionsAll, hmentions],
        hfirst.trans hin, hout⟩

theorem Passes.function {routine : Routine}
    (h : Passes script hops around (.function routine :: later) before after st) :
    ∃ before after st, Passes script hops
      ((around.declare [routine.name.lexeme]).call .function routine.parameters) routine.body
      before after st := by
  obtain ⟨name, parameters, body⟩ := routine
  have hstate := (h.state.introduce name).call .function parameters
  have hin := (Walked.introduce [] st name).trans (Walked.toBody (st.introduce name) parameters)
  exact ⟨_, _, _, h.inside (by simp [Stmt.mentions, Routine.mentions]) hstate hin (Walked.close _)⟩

theorem Passes.method {name : Token} {methods : List Routine} {method : Routine}
    (h : Passes script hops around (.classDecl name methods :: later) before after st)
    (hmem : method ∈ methods) : ∃ before after st, Passes script hops
      ((around.inClass name).call (.method method.name.lexeme) method.parameters) method.body
      before after st := by
  obtain ⟨ms, ms', st', hmentions, htoMethod, hrest⟩ :=
    walked_toMethod hmem ((st.introduce name).enter thisScope)
  have hstate := ((h.state.inClass name).same htoMethod).call (.method method.name.lexeme)
    method.parameters
  have hclass := (Walked.introduce [] st name).trans (Walked.enter [] _ thisScope)
  have hin := (hclass.trans htoMethod).trans (Walked.toBody st' method.parameters)
  rw [routine_eq method around.hosts] at hrest
  have hout := ((Walked.close _).trans hrest).leave rfl
  refine ⟨_, _, _, h.inside ?_ hstate hin hout⟩
  cases method
  simp [Stmt.mentions, hmentions, Routine.mentions]

/-- The walk reaches every row of the script in a state that agrees with its surroundings. -/
theorem passes_row (h : Row script around row) (hops : HopTable) :
    ∃ before after st, Passes script hops around row before after st := by
  induction h with
  | script => exact ⟨_, _, _, passes_script script hops⟩
  | rest _ ih =>
    obtain ⟨_, _, _, h⟩ := ih
    exact ⟨_, _, _, h.rest⟩
  | block _ ih =>
    obtain ⟨_, _, st, h⟩ := ih
    exact ⟨_, _, _, h.inside (by simp [Stmt.mentions]) (h.state.enter holds_empty)
      (Walked.enter [] st .empty) (Walked.close _)⟩
  | @thenOnly around condition _ _ _ ih =>
    obtain ⟨_, _, st, h⟩ := ih
    have hin := (walked_expr (contextOf around.hosts) condition st).exact
    exact ⟨_, _, _, h.inside (by simp [Stmt.mentions, Stmt.mentionsAll]) (h.state.expr condition)
      hin (Walked.refl [] _)⟩
  | @thenBranch around condition _ elseBranch _ _ ih =>
    obtain ⟨_, _, st, h⟩ := ih
    have hin := (walked_expr (contextOf around.hosts) condition st).exact
    exact ⟨_, _, _, h.inside (by simp [Stmt.mentions, Stmt.mentionsAll]) (h.state.expr condition)
      hin (walked_statement _ elseBranch _)⟩
  | @elseBranch around condition thenBranch _ _ _ ih =>
    obtain ⟨_, _, st, h⟩ := ih
    have hin := ((walked_expr (contextOf around.hosts) condition st).trans
      (walked_statement (contextOf around.hosts) thenBranch _)).exact
    exact ⟨_, _, _, h.inside (by simp [Stmt.mentions, Stmt.mentionsAll])
      ((h.state.expr condition).stmt thenBranch) hin (Walked.refl [] _)⟩
  | @loop around condition _ _ _ ih =>
    obtain ⟨_, _, st, h⟩ := ih
    have hin := (walked_expr (contextOf around.hosts) condition st).exact
    exact ⟨_, _, _, h.inside (by simp [Stmt.mentions, Stmt.mentionsAll]) (h.state.expr condition)
      hin (Walked.refl [] _)⟩
  | function _ ih =>
    obtain ⟨_, _, _, h⟩ := ih
    exact h.function
  | method _ hmem ih =>
    obtain ⟨_, _, _, h⟩ := ih
    exact h.method hmem

end Passes

end ScriptLang.Binding
