/-
ScriptLang.Proofs.Binding.Rules — binding finds a fault exactly when a rule is broken.

`Admissible` lists the static rules about scripts in terms of where statements
and mentions stand. Each of them concerns one statement and its surroundings.

* From no fault to the rules: the walk comes by every place
  (`ScriptLang.Proofs.Binding.Passage`) and leaves it without a fault, so what
  it has checked there holds.
* From the rules to no fault: by induction over the trees. What is needed of a
  statement beyond the rules is that its names are new in the scope it stands
  in (`Surroundings.New`); for a body this is the rule of the statement around.
-/
import ScriptLang.Proofs.Binding.Passage

namespace ScriptLang

/-! ## 1. The rules -/

/-- The parameters of a routine and the declarations of its body have different names. -/
def Routine.Distinct (routine : Routine) : Prop :=
  (routine.parameters.map Token.lexeme ++ Stmt.declaresAll routine.body).Nodup

/-- The static rules. -/
structure Admissible (script : List Stmt) : Prop where
  /-- A block declares no name twice. -/
  block : ∀ around body, Stands script around (.block body) → (Stmt.declaresAll body).Nodup
  /-- A function declares no name twice, its parameters included. -/
  function : ∀ around routine, Stands script around (.function routine) → routine.Distinct
  /-- A method declares no name twice, its parameters included. -/
  method : ∀ around name methods, Stands script around (.classDecl name methods) →
    ∀ method ∈ methods, method.Distinct
  /-- No variable is read in its own initializer. -/
  initializer : ∀ around name value, Stands script around (.var name (some value)) →
    ∀ m ∈ value.mentions, m.role = .read → m.token.lexeme ≠ name.lexeme
  /-- Every `return` is in a function or method. -/
  ret : ∀ around keyword value, Stands script around (.ret keyword value) → around.hosts ≠ []
  /-- A `return` whose innermost function or method is an initializer has no value. -/
  value : ∀ around keyword value, Stands script around (.ret keyword (some value)) →
    around.hosts.head? ≠ some (.method initializerName)
  /-- Every `this` is in a method. -/
  self : ∀ around m, Mentioned script around m → m.role = .self → around.InMethod

/-- The names are different, and none of them is declared in the innermost scope yet. -/
def Surroundings.New (around : Surroundings) (names : List String) : Prop :=
  ∀ scope ∈ around.scopes.head?, names.Nodup ∧ ∀ name ∈ names, name ∉ scope

theorem Surroundings.new_nil (around : Surroundings) : around.New [] := by
  simp [Surroundings.New]

theorem Surroundings.new_append (around : Surroundings) (names names' : List String) :
    around.New (names ++ names') ↔ around.New names ∧ (around.declare names).New names' := by
  obtain ⟨hosts, scopes⟩ := around
  cases scopes with
  | nil => simp [New]
  | cons scope outer =>
    simp only [New, scopes_declare, List.modifyHead_cons, List.head?_cons, Option.mem_def,
      Option.some.injEq, forall_eq', List.nodup_append, List.mem_append]
    grind

theorem Surroundings.new_enter (around : Surroundings) (names : List String) :
    (around.enter []).New names ↔ names.Nodup := by
  simp [New, enter]

namespace Binding

/-! ## 2. Declarations -/

section Declarations

variable {st : State} {around : Surroundings}

/-- Between statements every declared name can be read. -/
theorem State.At.unready (h : st.At around) (name : String) : st.unready name = false := by
  obtain ⟨scopes, initializing, hops, faults⟩ := st
  obtain ⟨hosts, names⟩ := around
  have hnone : initializing = [] := h.initializing
  cases h.scopes with
  | nil => simp [State.unready, hnone]
  | @cons scope names outer outers hscope houter =>
    by_cases hmem : name ∈ names <;> simp [State.unready, hscope name, hmem, hnone]

theorem faults_declare_iff (h : st.At around) (name : Token) :
    (st.declare name).faults = [] ↔ st.faults = [] ∧ around.New [name.lexeme] := by
  obtain ⟨scopes, initializing, hops, faults⟩ := st
  obtain ⟨hosts, names⟩ := around
  cases h.scopes with
  | nil => simp [State.declare, Surroundings.New]
  | @cons scope names outer outers hscope houter =>
    have hcontains := hscope.contains_iff name.lexeme
    by_cases hmem : name.lexeme ∈ names
    · simp [State.declare, Surroundings.New, hcontains.mpr hmem, hmem, State.complain]
    · have hfresh : scope.contains name.lexeme = false := by simpa [hmem] using hcontains
      simp [State.declare, Surroundings.New, hfresh, hmem]

/-- In the initializer of a new variable, this variable alone cannot be read. -/
theorem unready_declare (h : st.At around) {name : Token} (hnew : around.New [name.lexeme])
    (other : String) : (st.declare name).unready other = false ↔ other ≠ name.lexeme := by
  obtain ⟨scopes, initializing, hops, faults⟩ := st
  obtain ⟨hosts, names⟩ := around
  have hnone : initializing = [] := h.initializing
  cases h.scopes with
  | nil => simp [State.declare, State.unready, hnone]
  | @cons scope names outer outers hscope houter =>
    have hfresh : scope.contains name.lexeme = false := by
      have hcontains := hscope.contains_iff name.lexeme
      have hmem : name.lexeme ∉ names := by simpa [Surroundings.New] using hnew
      simpa [hmem] using hcontains
    by_cases heq : other = name.lexeme
    · simp [State.declare, State.unready, hfresh, NameMap.get?_insert, heq]
    · by_cases hmem : other ∈ names <;>
        simp [State.declare, State.unready, hfresh, NameMap.get?_insert, heq, hscope other, hmem,
          hnone]

theorem faults_introduce_iff (h : st.At around) (name : Token) :
    (st.introduce name).faults = [] ↔ st.faults = [] ∧ around.New [name.lexeme] := by
  rw [State.introduce, faults_define, faults_declare_iff h]

theorem faults_parameters_iff (h : st.At around) (parameters : List Token) :
    (parameters.foldl State.introduce st).faults = [] ↔
      st.faults = [] ∧ around.New (parameters.map Token.lexeme) := by
  induction parameters generalizing st around with
  | nil => simp [Surroundings.new_nil]
  | cons t rest ih =>
    have happend := around.new_append [t.lexeme] (rest.map Token.lexeme)
    rw [List.foldl_cons, ih (h.introduce t), faults_introduce_iff h, and_assoc, ← happend]
    rfl

end Declarations

/-! ## 3. Statements with rules of their own -/

section Statements

variable {st : State} {around : Surroundings} {ctx : Context}

/-- An expression between statements may read everything. -/
theorem faults_expr_iff (h : st.At around) (e : Expr) :
    (expr ctx e st).faults = [] ↔
      st.faults = [] ∧ ∀ m ∈ e.mentions, m.role = .self → ctx.insideClass = true := by
  rw [((threaded_checked ctx).expr e st).faults]
  have hallowed : ∀ m, Allowed ctx st m ↔ (m.role = .self → ctx.insideClass = true) :=
    fun m => ⟨Allowed.self, fun hself => ⟨fun _ => h.unready _, hself⟩⟩
  simp only [hallowed]

theorem faults_exprOption_iff (h : st.At around) (e : Option Expr) :
    (exprOption ctx e st).faults = [] ↔ st.faults = [] ∧
      ∀ m ∈ Expr.mentionsOption e, m.role = .self → ctx.insideClass = true := by
  cases e with
  | none => simp [exprOption, Expr.mentionsOption]
  | some e => exact faults_expr_iff h e

theorem faults_var_iff (h : st.At around) (name : Token) (initializer : Option Expr) :
    (stmt ctx (.var name initializer) st).faults = [] ↔
      st.faults = [] ∧ around.New [name.lexeme] ∧ ∀ m ∈ Expr.mentionsOption initializer,
        (m.role = .read → m.token.lexeme ≠ name.lexeme) ∧
        (m.role = .self → ctx.insideClass = true) := by
  rw [stmt, faults_define, ((threaded_checked ctx).exprOption initializer _).faults,
    faults_declare_iff h, and_assoc]
  have hallowed : around.New [name.lexeme] → ∀ m, Allowed ctx (st.declare name) m ↔
      (m.role = .read → m.token.lexeme ≠ name.lexeme) ∧
      (m.role = .self → ctx.insideClass = true) := by
    intro hnew m
    rw [← unready_declare h hnew]
    exact ⟨fun hm => ⟨hm.read, hm.self⟩, fun hm => ⟨hm.1, hm.2⟩⟩
  simp +contextual only [hallowed, and_congr_right_iff, implies_true]

/-- A complaint under a condition. -/
theorem faults_complainIf (p : Prop) [Decidable p] (st : State) (token : Token)
    (cause : BindingCause) :
    (if p then st.complain token cause else st).faults = [] ↔ st.faults = [] ∧ ¬ p := by
  by_cases h : p <;> simp [h, State.complain]

theorem faults_ret_iff (h : st.At around) (keyword : Token) (value : Option Expr) :
    (stmt ctx (.ret keyword value) st).faults = [] ↔ st.faults = [] ∧ ctx.routine ≠ .script ∧
      (value.isSome = true → ctx.routine ≠ .initializer) ∧
      ∀ m ∈ Expr.mentionsOption value, m.role = .self → ctx.insideClass = true := by
  rw [stmt, faults_exprOption_iff ((h.complainIf _ keyword _).complainIf _ keyword _),
    faults_complainIf, faults_complainIf]
  simp [and_assoc]

end Statements

/-! ## 4. From no fault to the rules -/

section Necessity

variable {script : List Stmt} {hops : HopTable} {st : State} {around : Surroundings} {ctx : Context}

/-- What a statement declares without a fault is new. -/
theorem new_of_statement : ∀ (s : Stmt) {st : State} {around : Surroundings}, st.At around →
    (stmt ctx s st).faults = [] → around.New s.declares
  | .expression _, _, around, _, _ => around.new_nil
  | .print _, _, around, _, _ => around.new_nil
  | .var name initializer, _, _, h, hclean => ((faults_var_iff h name initializer).mp hclean).2.1
  | .block _, _, around, _, _ => around.new_nil
  | .ifThen condition thenBranch, _, _, h, hclean =>
      new_of_statement thenBranch (h.expr condition) hclean
  | .ifElse condition thenBranch elseBranch, _, around, h, hclean => by
      have hthen := (walked_statement ctx elseBranch _).clean hclean
      exact (around.new_append _ _).mpr ⟨new_of_statement thenBranch (h.expr condition) hthen,
        new_of_statement elseBranch ((h.expr condition).stmt thenBranch) hclean⟩
  | .loop condition body, _, _, h, hclean => new_of_statement body (h.expr condition) hclean
  | .function ⟨name, parameters, body⟩, st, _, h, hclean => by
      have hbody := (walked_statements { ctx with routine := .function } body _).clean hclean
      have hstart := (Walked.toBody (st.introduce name) parameters).clean hbody
      exact ((faults_introduce_iff h name).mp hstart).2
  | .ret _ _, _, around, _, _ => around.new_nil
  | .classDecl name methods, st, _, h, hclean => by
      have hmethods := (walked_methods methods ((st.introduce name).enter thisScope)).clean hclean
      exact ((faults_introduce_iff h name).mp hmethods).2

theorem new_of_statements (h : st.At around) (body : List Stmt)
    (hclean : (stmts ctx body st).faults = []) : around.New (Stmt.declaresAll body) := by
  induction body generalizing st around with
  | nil => exact around.new_nil
  | cons s rest ih =>
    have hfirst := (walked_statements ctx rest (stmt ctx s st)).clean hclean
    exact (around.new_append _ _).mpr ⟨new_of_statement s h hfirst, ih (h.stmt s) hclean⟩

/-- A body that is walked over without a fault declares different names. -/
theorem distinct_of_body (h : st.At around) (parameters : List Token) (body : List Stmt)
    (hclean : (stmts ctx body
      (parameters.foldl State.introduce (st.enter .empty))).faults = []) :
    (parameters.map Token.lexeme ++ Stmt.declaresAll body).Nodup := by
  have hstart := h.enter holds_empty
  have hparameters := (walked_statements ctx body _).clean hclean
  rw [← around.new_enter, (around.enter []).new_append]
  exact ⟨((faults_parameters_iff hstart parameters).mp hparameters).2,
    new_of_statements (hstart.parameters parameters) body hclean⟩

theorem distinct_of_method (h : st.At around) {methods : List Routine} {method : Routine}
    (hmem : method ∈ methods) (hclean : (routines methods st).faults = []) : method.Distinct := by
  obtain ⟨ms, ms', st', -, hin, hout⟩ := walked_toMethod hmem st
  have hmethod := hout.clean hclean
  rw [routine_eq method []] at hmethod
  exact distinct_of_body (h.same hin) method.parameters method.body hmethod

/-- Where no fault is found, every statement is walked over without a fault. -/
theorem clean_of_stands {s : Stmt} (h : Stands script around s)
    (hclean : (walk script hops).faults = []) :
    ∃ st : State, st.At around ∧ (stmt (contextOf around.hosts) s st).faults = [] := by
  obtain ⟨rest, hrow⟩ := h
  obtain ⟨before, after, st, hpasses⟩ := passes_row hrow hops
  have hrest := hpasses.left.clean hclean
  exact ⟨st, hpasses.state, (walked_statements _ rest _).clean hrest⟩

theorem self_of_clean {s : Stmt} (h : st.At around) (hclean : (stmt ctx s st).faults = []) :
    ∀ m ∈ s.ownMentions, m.role = .self → ctx.insideClass = true := by
  cases s with
  | expression value => exact ((faults_expr_iff h value).mp hclean).2
  | print value => exact ((faults_expr_iff h value).mp hclean).2
  | var name initializer =>
    intro m hm
    exact (((faults_var_iff h name initializer).mp hclean).2.2 m hm).2
  | ifThen condition thenBranch =>
    exact ((faults_expr_iff h condition).mp ((walked_statement ctx thenBranch _).clean hclean)).2
  | ifElse condition thenBranch elseBranch =>
    have hthen := (walked_statement ctx elseBranch _).clean hclean
    exact ((faults_expr_iff h condition).mp ((walked_statement ctx thenBranch _).clean hthen)).2
  | loop condition body =>
    exact ((faults_expr_iff h condition).mp ((walked_statement ctx body _).clean hclean)).2
  | ret keyword value => exact ((faults_ret_iff h keyword value).mp hclean).2.2.2
  | block body => simp [Stmt.ownMentions]
  | function routine => simp [Stmt.ownMentions]
  | classDecl name methods => simp [Stmt.ownMentions]

theorem admissible_of_clean (hclean : (walk script hops).faults = []) : Admissible script where
  block around body hstands := by
    obtain ⟨st, hat, hblock⟩ := clean_of_stands hstands hclean
    have hnew := new_of_statements (hat.enter holds_empty) body hblock
    exact (around.new_enter _).mp hnew
  function around routine hstands := by
    obtain ⟨st, hat, hfunction⟩ := clean_of_stands hstands hclean
    obtain ⟨name, parameters, body⟩ := routine
    exact distinct_of_body (hat.introduce name) parameters body hfunction
  method around name methods hstands method hmem := by
    obtain ⟨st, hat, hclass⟩ := clean_of_stands hstands hclean
    exact distinct_of_method (hat.inClass name) hmem hclass
  initializer around name value hstands m hm := by
    obtain ⟨st, hat, hvar⟩ := clean_of_stands hstands hclean
    exact (((faults_var_iff hat name (some value)).mp hvar).2.2 m hm).1
  ret around keyword value hstands := by
    obtain ⟨st, hat, hret⟩ := clean_of_stands hstands hclean
    have hroutine := ((faults_ret_iff hat keyword value).mp hret).2.1
    exact fun hnone => hroutine ((routine_contextOf_eq_script _).mpr hnone)
  value around keyword value hstands := by
    obtain ⟨st, hat, hret⟩ := clean_of_stands hstands hclean
    have hroutine := ((faults_ret_iff hat keyword (some value)).mp hret).2.2.1 rfl
    exact fun hhead => hroutine ((routine_contextOf_eq_initializer _).mpr hhead)
  self around m hmentioned hrole := by
    obtain ⟨outer, s, hstands, hm, rfl⟩ := hmentioned
    obtain ⟨st, hat, hstmt⟩ := clean_of_stands hstands hclean
    have hinside := self_of_clean hat hstmt m hm hrole
    rw [insideClass_contextOf] at hinside
    rwa [Surroundings.inMethod_within]

end Necessity

/-! ## 5. From the rules to no fault -/

section Sufficiency

variable {script : List Stmt}

theorem self_of_stands (h : Admissible script) {around : Surroundings} {s : Stmt}
    (hstands : Stands script around s) :
    ∀ m ∈ s.ownMentions, m.role = .self → (contextOf around.hosts).insideClass = true := by
  intro m hm hrole
  have hmethod := h.self _ m ⟨around, s, hstands, hm, rfl⟩ hrole
  rw [Surroundings.inMethod_within] at hmethod
  exact (insideClass_contextOf around).mpr hmethod

/-- Parameters with different names are declared without a fault, and what the body declares is new
among them. -/
theorem clean_start {routine : Routine} {around : Surroundings} {st : State} (hat : st.At around)
    (host : Host) (hdistinct : routine.Distinct) (hclean : st.faults = []) :
    (routine.parameters.foldl State.introduce (st.enter .empty)).faults = [] ∧
      (around.call host routine.parameters).New (Stmt.declaresAll routine.body) := by
  unfold Routine.Distinct at hdistinct
  rw [← around.new_enter, (around.enter []).new_append] at hdistinct
  exact ⟨(faults_parameters_iff (hat.enter holds_empty) _).mpr ⟨hclean, hdistinct.1⟩, hdistinct.2⟩

mutual
theorem clean_statement (h : Admissible script) : ∀ (s : Stmt) {rest : List Stmt}
    {around : Surroundings} {st : State},
    Row script around (s :: rest) → st.At around → around.New s.declares → st.faults = [] →
    (stmt (contextOf around.hosts) s st).faults = []
  | .expression value, rest, _, _, hrow, hat, _, hclean =>
      (faults_expr_iff hat value).mpr ⟨hclean, self_of_stands h ⟨rest, hrow⟩⟩
  | .print value, rest, _, _, hrow, hat, _, hclean =>
      (faults_expr_iff hat value).mpr ⟨hclean, self_of_stands h ⟨rest, hrow⟩⟩
  | .var name initializer, rest, _, _, hrow, hat, hnew, hclean => by
      have hself := self_of_stands h ⟨rest, hrow⟩
      refine (faults_var_iff hat name initializer).mpr ⟨hclean, hnew, fun m hm => ⟨?_, hself m hm⟩⟩
      cases initializer with
      | none => simp [Expr.mentionsOption] at hm
      | some value => exact h.initializer _ name value ⟨rest, hrow⟩ m hm
  | .block body, rest, around, _, hrow, hat, _, hclean => by
      have hnew := (around.new_enter _).mpr (h.block _ body ⟨rest, hrow⟩)
      exact (clean_statements h body hrow.block (hat.enter holds_empty) hnew hclean :)
  | .ifThen condition thenBranch, rest, _, _, hrow, hat, hnew, hclean => by
      have hcondition := (faults_expr_iff hat condition).mpr
        ⟨hclean, self_of_stands h ⟨rest, hrow⟩⟩
      exact clean_statement h thenBranch hrow.thenOnly (hat.expr condition) hnew hcondition
  | .ifElse condition thenBranch elseBranch, rest, around, _, hrow, hat, hnew, hclean => by
      have hcondition := (faults_expr_iff hat condition).mpr
        ⟨hclean, self_of_stands h ⟨rest, hrow⟩⟩
      obtain ⟨hnew, hnew'⟩ := (around.new_append _ _).mp hnew
      have hthen :=
        clean_statement h thenBranch hrow.thenBranch (hat.expr condition) hnew hcondition
      exact (clean_statement h elseBranch hrow.elseBranch ((hat.expr condition).stmt thenBranch)
        hnew' hthen :)
  | .loop condition body, rest, _, _, hrow, hat, hnew, hclean => by
      have hcondition := (faults_expr_iff hat condition).mpr
        ⟨hclean, self_of_stands h ⟨rest, hrow⟩⟩
      exact clean_statement h body hrow.loop (hat.expr condition) hnew hcondition
  | .function ⟨name, parameters, body⟩, rest, _, st, hrow, hat, hnew, hclean => by
      have hname := (faults_introduce_iff hat name).mpr ⟨hclean, hnew⟩
      have hat' := hat.introduce name
      obtain ⟨hstart, hnew'⟩ := clean_start hat' .function (h.function _ _ ⟨rest, hrow⟩) hname
      exact (clean_statements h body hrow.function (hat'.call .function parameters) hnew' hstart :)
  | .ret keyword value, rest, _, _, hrow, hat, _, hclean => by
      refine (faults_ret_iff hat keyword value).mpr ⟨hclean, ?_, ?_, self_of_stands h ⟨rest, hrow⟩⟩
      · exact fun hscript => h.ret _ keyword value ⟨rest, hrow⟩
          ((routine_contextOf_eq_script _).mp hscript)
      · cases value with
        | none => simp
        | some value =>
          exact fun _ hinit => h.value _ keyword value ⟨rest, hrow⟩
            ((routine_contextOf_eq_initializer _).mp hinit)
  | .classDecl name methods, rest, _, st, hrow, hat, hnew, hclean => by
      have hname := (faults_introduce_iff hat name).mpr ⟨hclean, hnew⟩
      exact clean_methods h methods (fun _ => hrow.method) (h.method _ name methods ⟨rest, hrow⟩)
        (hat.inClass name) hname

theorem clean_statements (h : Admissible script) : ∀ (row : List Stmt)
    {around : Surroundings} {st : State},
    Row script around row → st.At around → around.New (Stmt.declaresAll row) → st.faults = [] →
    (stmts (contextOf around.hosts) row st).faults = []
  | [], _, _, _, _, _, hclean => hclean
  | s :: rest, around, _, hrow, hat, hnew, hclean => by
      obtain ⟨hnew, hnew'⟩ := (around.new_append _ _).mp hnew
      have hfirst := clean_statement h s hrow hat hnew hclean
      exact (clean_statements h rest hrow.rest (hat.stmt s) hnew' hfirst :)

theorem clean_methods (h : Admissible script) : ∀ (methods : List Routine)
    {around : Surroundings} {st : State},
    (∀ method ∈ methods, Row script
      (around.call (.method method.name.lexeme) method.parameters) method.body) →
    (∀ method ∈ methods, method.Distinct) → st.At around → st.faults = [] →
    (routines methods st).faults = []
  | [], _, _, _, _, _, hclean => hclean
  | ⟨name, parameters, body⟩ :: rest, around, st, hrows, hdistinct, hat, hclean => by
      obtain ⟨hstart, hnew⟩ := clean_start hat (.method name.lexeme)
        (hdistinct _ List.mem_cons_self) hclean
      have hbody := clean_statements h body (hrows _ List.mem_cons_self)
        (hat.call (.method name.lexeme) parameters) hnew hstart
      have hfirst : (routine ⟨name, parameters, body⟩ st).faults = [] := by
        rw [routine_eq _ around.hosts]
        exact hbody
      exact clean_methods h rest (fun r hr => hrows r (List.mem_cons_of_mem _ hr))
        (fun r hr => hdistinct r (List.mem_cons_of_mem _ hr))
        (hat.same (walked_method ⟨name, parameters, body⟩ st)) hfirst
end

end Sufficiency

/-- Binding finds no fault exactly when every rule is kept. -/
theorem resolve_faultless_iff (statements : List Stmt) (hops : HopTable) :
    (resolve statements hops).2 = [] ↔ Admissible statements := by
  constructor
  · exact admissible_of_clean
  · intro h
    have hat : State.At ⟨[], [], hops, []⟩ .outside := ⟨.nil, rfl⟩
    -- Outside every scope nothing has to be new.
    have hnew : Surroundings.outside.New (Stmt.declaresAll statements) := by
      simp [Surroundings.New, Surroundings.outside]
    exact clean_statements h statements .script hat hnew rfl

/-- A function is no initializer, whatever its name and wherever it stands. -/
example : (resolve [.classDecl ⟨.identifier, "C", none, 1⟩ [⟨⟨.identifier, "init", none, 1⟩, [],
    [.function ⟨⟨.identifier, "init", none, 1⟩, [],
      [.ret ⟨.returnWord, "return", none, 1⟩ (some (.literal 0 .nil))]⟩]⟩]] .empty).2 = [] := by
  decide

end Binding

end ScriptLang
