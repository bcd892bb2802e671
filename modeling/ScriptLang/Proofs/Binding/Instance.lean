/-
ScriptLang.Proofs.Binding.Instance — where the keyword `this` may stand.

The keyword `this` belongs to the innermost method around it. In the text that
is the method that has it among its `selves`: in its body or in a function
declared there, but not in a class declared there. Among the open scopes it is
the innermost one that holds `this`, a number of scopes away
(`instanceDepth?`). No declaration changes this number, since no script can
declare the name `this`.

A walk without faults leaves the keyword only where some open scope holds
`this` (`Placed.inside`), so its hop count is that number (`Written`).
-/
import ScriptLang.Proofs.Binding.Bound

namespace ScriptLang

/-! ## 1. The keyword in the text -/

/-- The identities of the keywords `this` in an expression. -/
def Expr.selves (e : Expr) : List Nat :=
  (e.mentions.filter (·.role = .self)).map Mention.id

mutual
/-- The identities of the keywords `this` in a statement that do not belong to a method in it. -/
def Stmt.selves : Stmt → List Nat
  | .expression value => value.selves
  | .print value => value.selves
  | .var _ initializer => initializer.toList.flatMap Expr.selves
  | .block body => Stmt.selvesAll body
  | .ifThen condition thenBranch => condition.selves ++ thenBranch.selves
  | .ifElse condition thenBranch elseBranch =>
    condition.selves ++ thenBranch.selves ++ elseBranch.selves
  | .loop condition body => condition.selves ++ body.selves
  | .function routine => routine.selves
  | .ret _ value => value.toList.flatMap Expr.selves
  | .classDecl _ _ => []

/-- The identities of the keywords `this` in some statements that do not belong to a method in
them. -/
def Stmt.selvesAll : List Stmt → List Nat
  | [] => []
  | s :: rest => s.selves ++ Stmt.selvesAll rest

/-- The identities of the keywords `this` that belong to a method, or would if the routine was
one. -/
def Routine.selves : Routine → List Nat
  | ⟨_, _, body⟩ => Stmt.selvesAll body
end

theorem Routine.selves_eq (routine : Routine) : routine.selves = Stmt.selvesAll routine.body := by
  cases routine
  rw [Routine.selves]

theorem Expr.mem_selves {e : Expr} {id : Nat} :
    id ∈ e.selves ↔ ∃ m ∈ e.mentions, m.role = .self ∧ m.id = id := by
  simp [Expr.selves, and_assoc]

theorem Expr.selves_mono {e e' : Expr} (h : ∀ m ∈ e'.mentions, m ∈ e.mentions) :
    ∀ id ∈ e'.selves, id ∈ e.selves := by
  intro id hid
  obtain ⟨m, hm, hrole, heq⟩ := Expr.mem_selves.mp hid
  exact Expr.mem_selves.mpr ⟨m, h m hm, hrole, heq⟩

theorem Stmt.selves_of_mem {body : List Stmt} {s : Stmt} (h : s ∈ body) :
    ∀ id ∈ s.selves, id ∈ Stmt.selvesAll body := by
  intro id hid
  induction body with
  | nil => cases h
  | cons first rest ih =>
    rw [Stmt.selvesAll, List.mem_append]
    rcases List.mem_cons.mp h with rfl | hmem
    · exact .inl hid
    · exact .inr (ih hmem)

namespace Binding

/-! ## 2. The keyword among scopes -/

/-- The number of scopes between a place and the innermost scope that holds the instance. -/
def instanceDepth? (S : List Scope) : Option Nat := S.findIdx? (·.contains selfName)

section Depth

variable {S : List Scope} {scope : Scope} {name : String} {good : Token → Prop}

@[simp] theorem instanceDepth?_nil : instanceDepth? [] = none := rfl

@[simp] theorem instanceDepth?_thisScope (S : List Scope) :
    instanceDepth? (thisScope :: S) = some 0 := rfl

theorem instanceDepth?_cons (h : scope.contains selfName = false) :
    instanceDepth? (scope :: S) = (instanceDepth? S).map (· + 1) := by
  simp [instanceDepth?, List.findIdx?_cons, h]

@[simp] theorem instanceDepth?_empty (S : List Scope) :
    instanceDepth? (.empty :: S) = (instanceDepth? S).map (· + 1) :=
  instanceDepth?_cons rfl

theorem instanceDepth?_declared (h : name ≠ selfName) (ready : Bool) :
    instanceDepth? (declared S name ready) = instanceDepth? S := by
  cases S with
  | nil => rfl
  | cons scope outer =>
    simp [instanceDepth?, declared, List.findIdx?_cons, NameMap.contains_insert, h.symm]

theorem instanceDepth?_parameters {parameters : List Token}
    (h : ∀ t ∈ parameters, t.lexeme ≠ selfName) :
    instanceDepth? (parameterScope parameters :: S) = (instanceDepth? S).map (· + 1) := by
  refine instanceDepth?_cons ?_
  rw [contains_parameterScope]
  simpa using h

theorem instanceDepth?_scopesAfter {s : Stmt} (hgood : ∀ t, good t → t.lexeme ≠ selfName)
    (htidy : Tidy good s) : instanceDepth? (scopesAfter S s) = instanceDepth? S := by
  cases htidy with
  | var hname => exact instanceDepth?_declared (hgood _ hname) true
  | function hroutine =>
    cases hroutine with
    | mk hname => exact instanceDepth?_declared (hgood _ hname) true
  | classDecl hname => exact instanceDepth?_declared (hgood _ hname) true
  | expression | print | block | ifThen | ifElse | loop | ret => rfl

end Depth

theorem TidyRoutine.parts {good : Token → Prop} {r : Routine} (h : TidyRoutine good r) :
    good r.name ∧ (∀ t ∈ r.parameters, good t) ∧ TidyAll good r.body := by
  cases h with
  | mk hname hparameters hbody => exact ⟨hname, hparameters, hbody⟩

theorem TidyMethods.routine {good : Token → Prop} {methods : List Routine} {method : Routine} :
    TidyMethods good methods → method ∈ methods → TidyRoutine good method
  | .cons h hrest, hmem => by
      rcases List.mem_cons.mp hmem with rfl | hmem
      · exact h
      · exact TidyMethods.routine hrest hmem

/-- Statements in a row are each in order, among scopes that are as far from the instance. -/
theorem PlacedAll.mem {P : List Scope → Mention → Prop} {good : Token → Prop} {S : List Scope}
    {body : List Stmt} {s : Stmt} (hgood : ∀ t, good t → t.lexeme ≠ selfName)
    (h : PlacedAll P S body) (htidy : TidyAll good body) (hmem : s ∈ body) :
    ∃ S', Placed P S' s ∧ Tidy good s ∧ instanceDepth? S' = instanceDepth? S := by
  induction body generalizing S with
  | nil => cases hmem
  | cons first rest ih =>
    cases h with
    | cons hfirst hrest =>
      cases htidy with
      | cons htidyFirst htidyRest =>
        rcases List.mem_cons.mp hmem with rfl | hmem
        · exact ⟨S, hfirst, htidyFirst, rfl⟩
        · obtain ⟨S', hplaced, htidy, hdepth⟩ := ih hrest htidyRest hmem
          exact ⟨S', hplaced, htidy, hdepth.trans (instanceDepth?_scopesAfter hgood htidyFirst)⟩

/-! ## 3. Walks without faults -/

/-- A mention of the instance stands inside a scope that holds it. -/
def Inside (S : List Scope) (m : Mention) : Prop :=
  m.role = .self → (instanceDepth? S).isSome = true

section Walks

variable {P : List Scope → Mention → Prop} {good : Token → Prop} {ctx : Context} {S : List Scope}

/-- The scopes around a place where the keyword may stand hold the instance. -/
def Context.Fits (ctx : Context) (S : List Scope) : Prop :=
  ctx.insideClass = true → (instanceDepth? S).isSome = true

theorem Context.Fits.inner {S' : List Scope} (h : ctx.Fits S)
    (hdepth : instanceDepth? S' = (instanceDepth? S).map (· + 1)) : ctx.Fits S' := by
  intro hctx
  rw [hdepth, Option.isSome_map]
  exact h hctx

theorem Context.Fits.of_eq {S' : List Scope} (h : ctx.Fits S)
    (hdepth : instanceDepth? S' = instanceDepth? S) : ctx.Fits S' :=
  fun hctx => hdepth ▸ h hctx

theorem Context.Fits.expr {e : Expr} {st : State} (h : ctx.Fits S)
    (hclean : (expr ctx e st).faults = []) : ∀ m ∈ e.mentions, Inside S m := by
  intro m hm hrole
  have hallowed := (((threaded_checked ctx).expr e st).faults.mp hclean).2 m hm
  exact h (hallowed.self hrole)

theorem Context.Fits.exprOption {e : Option Expr} {st : State} (h : ctx.Fits S)
    (hclean : (exprOption ctx e st).faults = []) :
    ∀ m ∈ Expr.mentionsOption e, Inside S m := by
  cases e with
  | none => simp [Expr.mentionsOption]
  | some e => exact h.expr hclean

mutual
/-- In a statement that is walked over without faults, the keyword stands inside a scope that holds
the instance. -/
theorem Placed.inside {S : List Scope} {s : Stmt} (hgood : ∀ t, good t → t.lexeme ≠ selfName) :
    Placed P S s → Tidy good s → ∀ (ctx : Context) {st : State}, ctx.Fits S →
    (stmt ctx s st).faults = [] → Placed (fun S m => P S m ∧ Inside S m) S s
  | .expression h, _, _, _, hfits, hclean =>
      .expression fun m hm => ⟨h m hm, hfits.expr hclean m hm⟩
  | .print h, _, _, _, hfits, hclean => .print fun m hm => ⟨h m hm, hfits.expr hclean m hm⟩
  | .var hfresh h, .var hname, ctx, st, hfits, hclean => by
      rw [stmt, faults_define] at hclean
      have hinside := (hfits.of_eq (instanceDepth?_declared (hgood _ hname) false)).exprOption hclean
      exact .var hfresh fun m hm => ⟨h m hm, hinside m hm⟩
  | .block h, .block htidy, ctx, _, hfits, hclean =>
      .block (h.inside hgood htidy ctx (hfits.inner (instanceDepth?_empty _)) hclean)
  | .ifThen h hthen hbranch, .ifThen _ htidy, ctx, st, hfits, hclean =>
      .ifThen (fun m hm => ⟨h m hm, hfits.expr ((walked_stmt htidy ctx _).clean hclean) m hm⟩) hthen
        (hbranch.inside hgood htidy ctx hfits hclean)
  | .ifElse h hthen hbranch helse hbranch', .ifElse _ htidy _ htidy', ctx, st, hfits, hclean => by
      have hclean' := (walked_stmt htidy' ctx _).clean hclean
      exact .ifElse (fun m hm => ⟨h m hm, hfits.expr ((walked_stmt htidy ctx _).clean hclean') m hm⟩)
        hthen (hbranch.inside hgood htidy ctx hfits hclean') helse
        (hbranch'.inside hgood htidy' ctx hfits hclean)
  | .loop h hbody hplaced, .loop _ htidy, ctx, st, hfits, hclean =>
      .loop (fun m hm => ⟨h m hm, hfits.expr ((walked_stmt htidy ctx _).clean hclean) m hm⟩) hbody
        (hplaced.inside hgood htidy ctx hfits hclean)
  | .function hfresh (.mk hnodup h), .function (.mk hname hparameters hbody), ctx, st, hfits,
      hclean => by
      have hinner := (hfits.of_eq (instanceDepth?_declared (hgood _ hname) true)).inner
        (instanceDepth?_parameters fun t ht => hgood t (hparameters t ht))
      exact .function hfresh (.mk hnodup
        (h.inside hgood hbody { ctx with routine := .function } hinner hclean))
  | .ret h, _, _, _, hfits, hclean =>
      .ret fun m hm => ⟨h m hm, hfits.exprOption hclean m hm⟩
  | .classDecl hfresh h, .classDecl _ hmethods, _, _, _, hclean =>
      .classDecl hfresh (h.inside hgood hmethods (by simp) hclean)

theorem PlacedAll.inside {S : List Scope} {body : List Stmt}
    (hgood : ∀ t, good t → t.lexeme ≠ selfName) : PlacedAll P S body → TidyAll good body →
    ∀ (ctx : Context) {st : State}, ctx.Fits S → (stmts ctx body st).faults = [] →
    PlacedAll (fun S m => P S m ∧ Inside S m) S body
  | .nil, _, _, _, _, _ => .nil
  | .cons h hrest, .cons htidy htidyRest, ctx, _, hfits, hclean =>
      .cons (h.inside hgood htidy ctx hfits ((walked_stmts htidyRest ctx _).clean hclean))
        (hrest.inside hgood htidyRest ctx (hfits.of_eq (instanceDepth?_scopesAfter hgood htidy)) hclean)

theorem PlacedMethods.inside {S : List Scope} {methods : List Routine}
    (hgood : ∀ t, good t → t.lexeme ≠ selfName) : PlacedMethods P S methods →
    TidyMethods good methods → ∀ {st : State}, (instanceDepth? S).isSome = true →
    (routines methods st).faults = [] → PlacedMethods (fun S m => P S m ∧ Inside S m) S methods
  | .nil, _, _, _, _ => .nil
  | .cons (.mk hnodup h) hrest, .cons (.mk hname hparameters hbody) htidyRest, st, hdepth,
      hclean => by
      have hclean' := (walked_methods _ (routine ⟨_, _, _⟩ st)).clean hclean
      have hinner := instanceDepth?_parameters (S := S) fun t ht => hgood t (hparameters t ht)
      refine .cons (.mk hnodup ?_) (hrest.inside hgood htidyRest hdepth hclean)
      exact h.inside hgood hbody ⟨Enclosing.ofMethod ⟨_, _, _⟩, true⟩
        (fun _ => by rw [hinner, Option.isSome_map, hdepth]) hclean'
end

end Walks

/-! ## 4. Scripts -/

/-- What is known of a mention in a script that is bound without faults: its hop count is the
distance to its variable, only the instance is mentioned by the name `this`, and only inside a
scope that holds it. -/
structure Written (hops : HopTable) (bound : Nat) (S : List Scope) (m : Mention) : Prop
    extends Recorded hops bound S m where
  spelled : m.token.lexeme = selfName ↔ m.role = .self
  inside : Inside S m

section Written

variable {hops hops' : HopTable} {bound bound' : Nat} {S : List Scope} {m : Mention}

/-- The hop count of the keyword is the distance to the instance. -/
theorem Written.hop_self (h : Written hops bound S m) (hrole : m.role = .self) :
    ∃ k, instanceDepth? S = some k ∧ hops.get? m.id = some k := by
  obtain ⟨k, hk⟩ := Option.isSome_iff_exists.mp (h.inside hrole)
  refine ⟨k, hk, h.hop.trans ?_⟩
  rw [h.spelled.mpr hrole]
  exact hk

theorem Written.grow (h : Written hops bound S m) (hle : bound ≤ bound')
    (hold : ∀ id, id < bound → hops'.get? id = hops.get? id) : Written hops' bound' S m where
  lt := Nat.lt_of_lt_of_le h.lt hle
  hop := (hold m.id h.lt).trans h.hop
  spelled := h.spelled
  inside := h.inside

end Written

end Binding

end ScriptLang
