/-
ScriptLang.Proofs.Binding.Relabel — binding does not depend on places.

The walk that binds names looks at the spelling of tokens. Lines and identities
go into the faults and the hop counts that it records, but never into what it
decides. So two walks over the same trees at different places declare the same
names and find equally many faults, whatever hop counts they start from
(`faults_relabel`). And since nothing is left open at the end of a script, a
script after another one has no faults if the two have none (`faults_append`).
-/
import ScriptLang.Proofs.Binding.Walk
import ScriptLang.Proofs.Tree.Relabel

namespace ScriptLang.Binding

/-! ## 1. Walks side by side -/

/-- Two walks have the same scopes and equally many faults. -/
structure Alike (st st' : State) : Prop where
  scopes : st'.scopes = st.scopes
  initializing : st'.initializing = st.initializing
  faults : st'.faults.length = st.faults.length

namespace Alike

variable {st st' : State} {name name' : Token}

theorem enter (h : Alike st st') (scope : Scope) : Alike (st.enter scope) (st'.enter scope) :=
  ⟨congrArg (scope :: ·) h.scopes, h.initializing, h.faults⟩

theorem leave (h : Alike st st') : Alike st.leave st'.leave :=
  ⟨congrArg List.tail h.scopes, h.initializing, h.faults⟩

theorem complain (h : Alike st st') (cause : BindingCause) :
    Alike (st.complain name cause) (st'.complain name' cause) := by
  refine ⟨h.scopes, h.initializing, ?_⟩
  simp [State.complain, h.faults]

theorem declare (h : Alike st st') (hname : name'.lexeme = name.lexeme) :
    Alike (st.declare name) (st'.declare name') := by
  unfold State.declare
  rw [h.scopes, hname]
  cases st.scopes with
  | nil => exact ⟨rfl, congrArg (name.lexeme :: ·) h.initializing, h.faults⟩
  | cons scope outer =>
    dsimp only
    split
    · exact h.complain .redeclared
    · exact ⟨rfl, h.initializing, h.faults⟩

theorem define (h : Alike st st') (hname : name'.lexeme = name.lexeme) :
    Alike (st.define name) (st'.define name') := by
  unfold State.define
  rw [h.scopes, hname]
  cases st.scopes with
  | nil => exact ⟨rfl, congrArg (List.filter _) h.initializing, h.faults⟩
  | cons scope outer => exact ⟨rfl, h.initializing, h.faults⟩

theorem introduce (h : Alike st st') (hname : name'.lexeme = name.lexeme) :
    Alike (st.introduce name) (st'.introduce name') :=
  (h.declare hname).define hname

theorem unready (h : Alike st st') (name : String) : st'.unready name = st.unready name := by
  unfold State.unready
  rw [h.scopes, h.initializing]

theorem note (h : Alike st st') (id id' : Nat) (name : String) :
    Alike (st.note id name) (st'.note id' name) := by
  unfold State.note
  rw [h.scopes]
  cases st.scopes.findIdx? (·.contains name) with
  | none => exact h
  | some distance => exact ⟨rfl, h.initializing, h.faults⟩

theorem parameters (σ : Relabelling) (parameters : List Token) (h : Alike st st') :
    Alike (parameters.foldl State.introduce st)
      ((parameters.map σ.token).foldl State.introduce st') := by
  induction parameters generalizing st st' with
  | nil => exact h
  | cons name rest ih => exact ih (h.introduce (σ.lexeme name))

end Alike

/-! ## 2. Walks over the same trees -/

section Walks

variable (σ : Relabelling)

mutual
theorem alike_expr (ctx : Context) : ∀ (e : Expr) {st st' : State}, Alike st st' →
    Alike (expr ctx e st) (expr ctx (e.relabel σ) st')
  | .literal _ _, _, _, h => h
  | .group _ inner, _, _, h => alike_expr ctx inner h
  | .unary _ _ operand, _, _, h => alike_expr ctx operand h
  | .binary _ left _ right, _, _, h => alike_expr ctx right (alike_expr ctx left h)
  | .logical _ left _ right, _, _, h => alike_expr ctx right (alike_expr ctx left h)
  | .read id name, st, st', h => by
      rw [Expr.relabel, expr, expr, h.unready, σ.lexeme]
      refine Alike.note ?_ _ _ _
      split
      · exact h.complain .ownInitializer
      · exact h
  | .assign id name value, st, st', h => by
      rw [Expr.relabel, expr, expr, σ.lexeme]
      exact (alike_expr ctx value h).note _ _ _
  | .call _ callee _ arguments, _, _, h => alike_exprs ctx arguments (alike_expr ctx callee h)
  | .property _ object _, _, _, h => alike_expr ctx object h
  | .setProperty _ object _ value, _, _, h => alike_expr ctx object (alike_expr ctx value h)
  | .self id keyword, st, st', h => by
      rw [Expr.relabel, expr, expr, σ.lexeme]
      split
      · exact h.note _ _ _
      · exact h.complain .strayThis

theorem alike_exprs (ctx : Context) : ∀ (es : List Expr) {st st' : State}, Alike st st' →
    Alike (exprs ctx es st) (exprs ctx (Expr.relabelAll σ es) st')
  | [], _, _, h => h
  | e :: rest, _, _, h => alike_exprs ctx rest (alike_expr ctx e h)
end

theorem alike_exprOption (ctx : Context) (e : Option Expr) {st st' : State} (h : Alike st st') :
    Alike (exprOption ctx e st) (exprOption ctx (e.map (·.relabel σ)) st') := by
  cases e with
  | none => exact h
  | some e => exact alike_expr σ ctx e h

theorem isSome_relabel (e : Option Expr) : (e.map (·.relabel σ)).isSome = e.isSome := by
  cases e <;> rfl

mutual
theorem alike_stmt (ctx : Context) : ∀ (s : Stmt) {st st' : State}, Alike st st' →
    Alike (stmt ctx s st) (stmt ctx (s.relabel σ) st')
  | .expression value, _, _, h => alike_expr σ ctx value h
  | .print value, _, _, h => alike_expr σ ctx value h
  | .var name initializer, _, _, h =>
      (alike_exprOption σ ctx initializer (h.declare (σ.lexeme name))).define (σ.lexeme name)
  | .block body, _, _, h => (alike_stmts ctx body (h.enter .empty)).leave
  | .ifThen condition thenBranch, _, _, h =>
      alike_stmt ctx thenBranch (alike_expr σ ctx condition h)
  | .ifElse condition thenBranch elseBranch, _, _, h =>
      alike_stmt ctx elseBranch (alike_stmt ctx thenBranch (alike_expr σ ctx condition h))
  | .loop condition body, _, _, h => alike_stmt ctx body (alike_expr σ ctx condition h)
  | .function ⟨name, parameters, body⟩, _, _, h =>
      (alike_stmts { ctx with routine := .function } body
        (((h.introduce (σ.lexeme name)).enter .empty).parameters σ parameters)).leave
  | .ret keyword value, st, st', h => by
      rw [Stmt.relabel, stmt, stmt, isSome_relabel]
      refine alike_exprOption σ ctx value ?_
      have hreturn : Alike
          (if ctx.routine = .script then st.complain keyword .topLevelReturn else st)
          (if ctx.routine = .script then st'.complain (σ.token keyword) .topLevelReturn else st') := by
        split
        · exact h.complain .topLevelReturn
        · exact h
      split
      · exact hreturn.complain .initializerValue
      · exact hreturn
  | .classDecl name methods, _, _, h =>
      (alike_routines methods ((h.introduce (σ.lexeme name)).enter _)).leave

theorem alike_stmts (ctx : Context) : ∀ (ss : List Stmt) {st st' : State}, Alike st st' →
    Alike (stmts ctx ss st) (stmts ctx (Stmt.relabelAll σ ss) st')
  | [], _, _, h => h
  | s :: rest, _, _, h => alike_stmts ctx rest (alike_stmt ctx s h)

theorem alike_routines : ∀ (methods : List Routine) {st st' : State}, Alike st st' →
    Alike (routines methods st) (routines (Routine.relabelAll σ methods) st')
  | [], _, _, h => h
  | r :: rest, _, _, h => alike_routines rest (alike_routine r h)

theorem alike_routine : ∀ (r : Routine) {st st' : State}, Alike st st' →
    Alike (routine r st) (routine (r.relabel σ) st')
  | ⟨name, parameters, body⟩, st, st', h => by
      have hkind : Enclosing.ofMethod ((Routine.mk name parameters body).relabel σ) =
          Enclosing.ofMethod ⟨name, parameters, body⟩ := by
        rw [Enclosing.ofMethod, Enclosing.ofMethod, Routine.isInitializer_relabel]
      rw [Routine.relabel] at hkind ⊢
      rw [routine, routine, hkind]
      exact (alike_stmts _ body ((h.enter .empty).parameters σ parameters)).leave
end

/-! ## 3. Scripts -/

/-- A script has equally many faults in binding it wherever it stands, and whatever hop counts are
known already. -/
theorem faults_relabel (statements : List Stmt) (hops hops' : HopTable) :
    (resolve (Stmt.relabelAll σ statements) hops').2.length =
      (resolve statements hops).2.length := by
  have h : Alike ⟨[], [], hops, []⟩ ⟨[], [], hops', []⟩ := ⟨rfl, rfl, rfl⟩
  exact (alike_stmts σ .top statements h).faults

theorem stmts_append (ctx : Context) (ss ss' : List Stmt) (st : State) :
    stmts ctx (ss ++ ss') st = stmts ctx ss' (stmts ctx ss st) := by
  induction ss generalizing st with
  | nil => rfl
  | cons s ss ih => rw [List.cons_append, stmts, ih, stmts]

/-- Two scripts without faults, wherever they stand, have none one after the other. -/
theorem faults_append {ss ss' : List Stmt} {hops hops' : HopTable}
    (h : (resolve ss hops).2 = []) (h' : (resolve ss' hops').2 = []) (σ' : Relabelling)
    (known : HopTable) :
    (resolve (Stmt.relabelAll σ ss ++ Stmt.relabelAll σ' ss') known).2 = [] := by
  have hstart : Alike ⟨[], [], hops, []⟩ ⟨[], [], known, []⟩ := ⟨rfl, rfl, rfl⟩
  have hfirst := alike_stmts σ .top ss hstart
  have hwalk := walked_statements .top ss ⟨[], [], hops, []⟩
  -- Nothing is left open between the two scripts.
  have hbetween : Alike ⟨[], [], hops', []⟩
      (stmts .top (Stmt.relabelAll σ ss) ⟨[], [], known, []⟩) := by
    refine ⟨?_, ?_, ?_⟩
    · rw [hfirst.scopes, hwalk.scopes, declaredAll_nil]
    · rw [hfirst.initializing]
      exact List.eq_nil_iff_forall_not_mem.mpr fun name hname => by
        simpa using hwalk.initializing name hname
    · rw [hfirst.faults]
      exact congrArg List.length h
  have hsecond := (alike_stmts σ' .top ss' hbetween).faults
  rw [← stmts_append] at hsecond
  exact List.length_eq_zero_iff.mp (hsecond.trans (congrArg List.length h'))

end Walks

end ScriptLang.Binding
