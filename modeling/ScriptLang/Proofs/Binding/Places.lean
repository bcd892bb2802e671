/-
ScriptLang.Proofs.Binding.Places — the faults of binding point at tokens of
the trees.

A walk complains about a name or a keyword that stands in the tree it walks
over. So if all tokens of some statements are good, the faults found in them
point at good tokens, whatever the scopes and hop counts before them were
(`places_resolve`).
-/
import ScriptLang.Proofs.Tree.Formed

namespace ScriptLang.Binding

/-! ## 1. Complaints -/

/-- From one state to another only faults were added that point at good tokens. -/
def Complains (good : Token → Prop) (s s' : State) : Prop :=
  ∃ more, s'.faults = s.faults ++ more ∧
    ∀ f ∈ more, ∃ t cause, good t ∧ f = .binding t.site cause

namespace Complains

variable {good : Token → Prop} {s s' s'' : State}

/-- No fault was added. -/
theorem of_eq (h : s'.faults = s.faults) : Complains good s s' := ⟨[], by simp [h], by simp⟩

theorem trans (h : Complains good s s') (h' : Complains good s' s'') : Complains good s s'' := by
  obtain ⟨more, hmore, hplaces⟩ := h
  obtain ⟨more', hmore', hplaces'⟩ := h'
  refine ⟨more ++ more', by rw [hmore', hmore, List.append_assoc], fun f hf => ?_⟩
  exact (List.mem_append.mp hf).elim (hplaces f) (hplaces' f)

theorem complain {token : Token} (h : good token) (cause : BindingCause) (s : State) :
    Complains good s (s.complain token cause) := by
  refine ⟨[.binding token.site cause], rfl, fun f hf => ?_⟩
  exact ⟨token, cause, h, List.mem_singleton.mp hf⟩

/-- A complaint that is made under a condition. -/
theorem complainIf {token : Token} (h : good token) (p : Prop) [Decidable p] (cause : BindingCause)
    (s : State) : Complains good s (if p then s.complain token cause else s) := by
  split
  · exact complain h cause s
  · exact of_eq rfl

theorem note (s : State) (id : Nat) (name : String) : Complains good s (s.note id name) := by
  unfold State.note
  split <;> exact of_eq rfl

theorem declare {name : Token} (h : good name) (s : State) : Complains good s (s.declare name) := by
  unfold State.declare
  split
  · exact of_eq rfl
  · split
    · exact complain h .redeclared s
    · exact of_eq rfl

theorem introduce {name : Token} (h : good name) (s : State) :
    Complains good s (s.introduce name) :=
  (declare h s).trans (of_eq (faults_define _ name))

theorem parameters {names : List Token} (h : ∀ t ∈ names, good t) (s : State) :
    Complains good s (names.foldl State.introduce s) := by
  induction names generalizing s with
  | nil => exact of_eq rfl
  | cons t names ih =>
    rw [List.foldl_cons]
    exact (introduce (h t (List.mem_cons_self ..)) s).trans
      (ih (fun t' ht' => h t' (List.mem_cons_of_mem _ ht')) _)

end Complains

/-! ## 2. Walks -/

section Walks

variable {good : Token → Prop}

theorem places_exprs {es : List Expr} (ctx : Context)
    (h : ∀ e ∈ es, ∀ s, Complains good s (expr ctx e s)) (s : State) :
    Complains good s (exprs ctx es s) := by
  induction es generalizing s with
  | nil => exact .of_eq rfl
  | cons e es ih =>
    exact (h e (List.mem_cons_self ..) s).trans
      (ih (fun e' he' => h e' (List.mem_cons_of_mem _ he')) _)

theorem places_expr {e : Expr} (h : e.Formed good) (ctx : Context) (s : State) :
    Complains good s (expr ctx e s) := by
  induction h generalizing s with
  | literal => exact .of_eq rfl
  | group _ ih | unary _ _ ih | property _ _ ih => exact ih s
  | binary _ _ _ ih ih' | logical _ _ _ ih ih' => exact (ih s).trans (ih' _)
  | read hname =>
    rw [expr]
    exact (Complains.complainIf hname.good _ _ s).trans (.note _ _ _)
  | assign _ _ ih => exact (ih s).trans (.note _ _ _)
  | call _ _ _ ih ih' => exact (ih s).trans (places_exprs ctx ih' _)
  | setProperty _ _ _ ih ih' => exact (ih' s).trans (ih _)
  | self hkeyword =>
    rw [expr]
    split
    · exact .note _ _ _
    · exact .complain hkeyword.good _ _

theorem places_exprOption {e : Option Expr} (h : ∀ e' ∈ e, e'.Formed good) (ctx : Context)
    (s : State) : Complains good s (exprOption ctx e s) := by
  cases e with
  | none => exact .of_eq rfl
  | some e => exact places_expr (h e rfl) ctx s

theorem places_stmts {body : List Stmt} (ctx : Context)
    (h : ∀ s ∈ body, ∀ ctx st, Complains good st (stmt ctx s st)) (st : State) :
    Complains good st (stmts ctx body st) := by
  induction body generalizing st with
  | nil => exact .of_eq rfl
  | cons s body ih =>
    exact (h s (List.mem_cons_self ..) ctx st).trans
      (ih (fun s' hs' => h s' (List.mem_cons_of_mem _ hs')) _)

/-- The body of a routine is walked in a scope with its parameters. -/
theorem places_body {parameters : List Token} {body : List Stmt} (ctx : Context)
    (hparameters : ∀ t ∈ parameters, good t)
    (hbody : ∀ s ∈ body, ∀ ctx st, Complains good st (stmt ctx s st)) (st : State) :
    Complains good st
      (stmts ctx body (parameters.foldl State.introduce (st.enter .empty))).leave := by
  have hnames := (Complains.of_eq (s := st) rfl).trans
    (Complains.parameters hparameters (st.enter .empty))
  exact (hnames.trans (places_stmts ctx hbody _)).trans (.of_eq rfl)

theorem places_routines {methods : List Routine}
    (hparameters : ∀ r ∈ methods, ∀ t ∈ r.parameters, good t)
    (hbody : ∀ r ∈ methods, ∀ s ∈ r.body, ∀ ctx st, Complains good st (stmt ctx s st))
    (st : State) : Complains good st (routines methods st) := by
  induction methods generalizing st with
  | nil => exact .of_eq rfl
  | cons method methods ih =>
    have hfirst : Complains good st (routine method st) := by
      have hown := places_body ⟨Enclosing.ofMethod method, true⟩
        (hparameters method (List.mem_cons_self ..)) (hbody method (List.mem_cons_self ..)) st
      obtain ⟨name, parameters, body⟩ := method
      exact hown
    exact hfirst.trans (ih (fun r hr => hparameters r (List.mem_cons_of_mem _ hr))
      (fun r hr => hbody r (List.mem_cons_of_mem _ hr)) _)

theorem places_stmt {s : Stmt} (h : s.Formed good) (ctx : Context) (st : State) :
    Complains good st (stmt ctx s st) := by
  induction h generalizing ctx st with
  | expression h | print h => exact places_expr h ctx st
  | var hname h =>
    have hvalue := (Complains.declare hname.good st).trans (places_exprOption h ctx _)
    exact hvalue.trans (.of_eq (faults_define _ _))
  | block _ ih =>
    have henter : Complains good st (st.enter .empty) := .of_eq rfl
    exact (henter.trans (places_stmts ctx ih _)).trans (.of_eq rfl)
  | ifThen h _ _ ih => exact (places_expr h ctx st).trans (ih ctx _)
  | ifElse h _ _ _ _ ih ih' => exact ((places_expr h ctx st).trans (ih ctx _)).trans (ih' ctx _)
  | loop h _ _ ih => exact (places_expr h ctx st).trans (ih ctx _)
  | @function routine hname hparameters _ ih =>
    have hown := (Complains.introduce hname.good st).trans
      (places_body { ctx with routine := .function } (fun t ht => (hparameters t ht).good) ih _)
    obtain ⟨name, parameters, body⟩ := routine
    exact hown
  | @ret keyword value hkeyword h =>
    have hstray := Complains.complainIf hkeyword.good (ctx.routine = .script) .topLevelReturn st
    have hvalue := Complains.complainIf hkeyword.good
      (value.isSome && ctx.routine = .initializer) .initializerValue
      (if ctx.routine = .script then st.complain keyword .topLevelReturn else st)
    exact (hstray.trans hvalue).trans (places_exprOption h ctx _)
  | @classDecl name methods hname _ hparameters _ ih =>
    have hscope : Complains good st
        ((st.introduce name).enter (NameMap.empty.insert selfName true)) :=
      (Complains.introduce hname.good st).trans (.of_eq rfl)
    exact (hscope.trans (places_routines (fun r hr t ht => (hparameters r hr t ht).good) ih _)).trans
      (.of_eq rfl)

/-- The faults of binding statements point at tokens of the statements. -/
theorem places_resolve {statements : List Stmt} (h : ∀ s ∈ statements, s.Formed good)
    (hops : HopTable) : ∀ f ∈ (resolve statements hops).2,
      ∃ t cause, good t ∧ f = .binding t.site cause := by
  obtain ⟨more, hmore, hplaces⟩ := places_stmts .top (fun s hs ctx st => places_stmt (h s hs) ctx st)
    ⟨[], [], hops, []⟩
  have hfaults : (resolve statements hops).2 = more := hmore
  exact hfaults ▸ hplaces

end Walks

end ScriptLang.Binding
