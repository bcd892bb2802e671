/-
ScriptLang.Proofs.Binding.Bound — what a walk without faults establishes.

`Bound` is what a walk without faults finds out about a mention: its hop count
is the distance to the innermost open scope that declares the name, and a
variable that is read there can be read. The mentions of a script have
different identities, so what is noted for one of them is never overwritten
for another (`Settles`).

The main statement is `placed_of_resolve`: a script that is bound without
faults is `Placed`, and every mention in it is `Bound`.
-/
import ScriptLang.Proofs.Binding.Walk

namespace ScriptLang.Binding

/-! ## 1. Mentions -/

/-- The hop count of a mention is the distance to the innermost of the open scopes that declares
the name. -/
structure Recorded (hops : HopTable) (bound : Nat) (S : List Scope) (m : Mention) : Prop where
  lt : m.id < bound
  hop : hops.get? m.id = S.findIdx? (·.contains m.token.lexeme)

/-- The hop count of a mention is recorded, and what it reads can be read. -/
structure Bound (hops : HopTable) (bound : Nat) (S : List Scope) (m : Mention) : Prop
    extends Recorded hops bound S m where
  ready : m.role = .read → ∀ k scope, S.findIdx? (·.contains m.token.lexeme) = some k →
    S[k]? = some scope → scope.get? m.token.lexeme = some true

/-- Names other than those of the innermost scope can be read. -/
def OuterReady (S : List Scope) : Prop :=
  ∀ scope ∈ S.tail, ∀ name, scope.get? name ≠ some false

/-- All declared names can be read. -/
def AllReady (S : List Scope) : Prop :=
  ∀ scope ∈ S, ∀ name, scope.get? name ≠ some false

/-- The mentions have different identities below a bound, they get their hop counts between the
tables `before` and `after`, and keep them to the end. -/
structure Settles (hops : HopTable) (bound : Nat) (ms : List Mention) (before after : HopTable) :
    Prop where
  nodup : (ms.map Mention.id).Nodup
  lt : ∀ m ∈ ms, m.id < bound
  fresh : ∀ m ∈ ms, before.get? m.id = none
  final : ∀ m ∈ ms, hops.get? m.id = after.get? m.id

section Settles

variable {hops : HopTable} {bound : Nat} {ms ms' : List Mention} {s s' s'' : State}
variable {S S' : List Scope}

theorem Settles.perm {before after : HopTable} (h : Settles hops bound ms before after)
    (hperm : ms.Perm ms') : Settles hops bound ms' before after where
  nodup := (hperm.map Mention.id).nodup_iff.mp h.nodup
  lt m hm := h.lt m (hperm.mem_iff.mpr hm)
  fresh m hm := h.fresh m (hperm.mem_iff.mpr hm)
  final m hm := h.final m (hperm.mem_iff.mpr hm)

/-- Mentions that are walked over one after the other get their hop counts one after the other,
since no mention changes the hop count of another. -/
theorem Settles.split (h : Settles hops bound (ms ++ ms') s.hops s''.hops)
    (hwalk : Walked ms S s s') (hwalk' : Walked ms' S' s' s'') :
    Settles hops bound ms s.hops s'.hops ∧ Settles hops bound ms' s'.hops s''.hops := by
  have hnodup := h.nodup
  rw [List.map_append, List.nodup_append] at hnodup
  obtain ⟨hnodup₁, hnodup₂, hdisjoint⟩ := hnodup
  have hapart : ∀ m ∈ ms, ∀ m' ∈ ms', m.id ≠ m'.id := fun m hm m' hm' =>
    hdisjoint _ (List.mem_map_of_mem hm) _ (List.mem_map_of_mem hm')
  refine ⟨⟨hnodup₁, ?_, ?_, ?_⟩, ⟨hnodup₂, ?_, ?_, ?_⟩⟩
  · exact fun m hm => h.lt m (List.mem_append_left _ hm)
  · exact fun m hm => h.fresh m (List.mem_append_left _ hm)
  · intro m hm
    rw [h.final m (List.mem_append_left _ hm), hwalk'.hops m.id]
    exact fun m' hm' => Ne.symm (hapart m hm m' hm')
  · exact fun m hm => h.lt m (List.mem_append_right _ hm)
  · intro m hm
    rw [hwalk.hops m.id fun m' hm' => hapart m' hm' m hm]
    exact h.fresh m (List.mem_append_right _ hm)
  · exact fun m hm => h.final m (List.mem_append_right _ hm)

/-- A noted mention has the distance to its variable as its hop count. -/
theorem Settles.hop_note {m : Mention}
    (h : Settles hops bound [m] s.hops (s.note m.id m.token.lexeme).hops) :
    hops.get? m.id = s.scopes.findIdx? (·.contains m.token.lexeme) := by
  rw [h.final m (List.mem_singleton.mpr rfl)]
  unfold State.note
  split
  · rename_i distance hfound
    rw [HopTable.get?_insert, if_pos rfl, hfound]
  · rename_i hfound
    rw [h.fresh m (List.mem_singleton.mpr rfl), hfound]

/-- A name that is not being initialized can be read, wherever it is declared. -/
theorem ready_of_not_unready {name : String} (houter : OuterReady s.scopes)
    (h : s.unready name = false) (k : Nat) (scope : Scope)
    (hfound : s.scopes.findIdx? (·.contains name) = some k) (hscope : s.scopes[k]? = some scope) :
    scope.get? name = some true := by
  have hcontains : scope.contains name = true := by
    obtain ⟨hlt, hat, -⟩ := List.findIdx?_eq_some_iff_getElem.mp hfound
    rw [List.getElem?_eq_getElem hlt] at hscope
    rw [← Option.some.inj hscope]
    exact hat
  obtain ⟨ready, hready⟩ := Option.isSome_iff_exists.mp hcontains
  have hnot : ready ≠ false := by
    rintro rfl
    cases k with
    | zero =>
      have hhead : s.scopes.head? = some scope := by rw [List.head?_eq_getElem?, hscope]
      unfold State.unready at h
      rw [hhead, Option.bind_some, hready] at h
      exact absurd h (by simp)
    | succ k =>
      refine houter scope ?_ name hready
      have htail : s.scopes.tail[k]? = some scope := by rw [List.getElem?_tail, hscope]
      exact List.mem_of_getElem? htail
  rw [hready]
  cases ready with
  | false => exact absurd rfl hnot
  | true => rfl

end Settles

section Expressions

variable {hops : HopTable} {bound : Nat} {ctx : Context}

/-- A walk that finds no fault binds the mentions it walks over. -/
def Binds (hops : HopTable) (bound : Nat) (ms : List Mention) (s s' : State) : Prop :=
  OuterReady s.scopes → s'.faults = [] → Settles hops bound ms s.hops s'.hops →
    ∀ m ∈ ms, Bound hops bound s.scopes m

theorem Binds.append {ms ms' : List Mention} {s s' s'' : State} {S : List Scope}
    (hwalk : Walked ms s.scopes s s') (h : Binds hops bound ms s s') (hwalk' : Walked ms' S s' s'')
    (h' : Binds hops bound ms' s' s'') : Binds hops bound (ms ++ ms') s s'' := by
  intro houter hclean hsettles
  obtain ⟨hsettles₁, hsettles₂⟩ := hsettles.split hwalk hwalk'
  unfold Binds at h'
  rw [hwalk.scopes] at h'
  intro m hm
  rcases List.mem_append.mp hm with hm | hm
  · exact h houter (hwalk'.clean hclean) hsettles₁ m hm
  · exact h' houter hclean hsettles₂ m hm

theorem Binds.perm {ms ms' : List Mention} {s s' : State} (h : Binds hops bound ms s s')
    (hperm : ms.Perm ms') : Binds hops bound ms' s s' := by
  intro houter hclean hsettles m hm
  exact h houter hclean (hsettles.perm hperm.symm) m (hperm.mem_iff.mpr hm)

theorem binds_read (id : Nat) (name : Token) (s : State) :
    Binds hops bound [⟨.read, id, name⟩] s (expr ctx (.read id name) s) := by
  intro houter hclean hsettles m hm
  rw [List.mem_singleton.mp hm]
  cases hunready : s.unready name.lexeme with
  | true =>
    have hwalk := Walked.note (s.complain name .ownInitializer) ⟨.read, id, name⟩ name.lexeme
    simp only [expr, hunready, if_true] at hclean
    have hnone : s.faults ++ [_] = [] := hwalk.clean hclean
    exact absurd hnone (by simp)
  | false =>
    simp only [expr, hunready, Bool.false_eq_true, if_false] at hsettles
    exact ⟨⟨hsettles.lt _ (List.mem_singleton.mpr rfl), hsettles.hop_note⟩,
      fun _ => ready_of_not_unready houter hunready⟩

/-- A mention that is not a read is bound as soon as it is noted. -/
theorem binds_note (m : Mention) (s : State) (hrole : m.role ≠ .read) :
    Binds hops bound [m] s (s.note m.id m.token.lexeme) := by
  intro _ _ hsettles m' hm'
  rw [List.mem_singleton.mp hm']
  exact ⟨⟨hsettles.lt _ (List.mem_singleton.mpr rfl), hsettles.hop_note⟩, fun h => absurd h hrole⟩

/-- A walk over mentions binds them if it finds no fault. -/
theorem threaded_binds (ctx : Context) : Threaded ctx fun ms s s' =>
    Walked ms s.scopes s s' ∧ Binds hops bound ms s s' where
  refl s := ⟨Walked.refl [] s, fun _ _ _ m hm => absurd hm (by simp)⟩
  trans h h' := ⟨(threaded_walked ctx).trans h.1 h'.1, Binds.append h.1 h.2 h'.1 h'.2⟩
  perm h hperm := ⟨(threaded_walked ctx).perm h.1 hperm, h.2.perm hperm⟩
  read id name s := ⟨(threaded_walked ctx).read id name s, binds_read id name s⟩
  assign id name s :=
    ⟨(threaded_walked ctx).assign id name s, binds_note ⟨.assign, id, name⟩ s (by simp)⟩
  self id keyword s := by
    refine ⟨(threaded_walked ctx).self id keyword s, ?_⟩
    rw [expr]
    split
    · exact binds_note ⟨.self, id, keyword⟩ s (by simp)
    · intro _ hclean
      exact absurd hclean (by simp [State.complain])

theorem binds_expr (e : Expr) (s : State) : Binds hops bound e.mentions s (expr ctx e s) :=
  ((threaded_binds ctx).expr e s).2

theorem binds_exprOption (e : Option Expr) (s : State) :
    Binds hops bound (Expr.mentionsOption e) s (exprOption ctx e s) :=
  ((threaded_binds ctx).exprOption e s).2

end Expressions

/-! ## 2. Scopes whose names can be read -/

section Ready

variable {S : List Scope}

theorem AllReady.outer (h : AllReady S) : OuterReady S :=
  fun scope hscope => h scope (List.mem_of_mem_tail hscope)

theorem AllReady.cons {scope : Scope} (h : AllReady S)
    (hscope : ∀ name, scope.get? name ≠ some false) : AllReady (scope :: S) := by
  intro scope' hscope'
  rcases List.mem_cons.mp hscope' with rfl | hmem
  · exact hscope
  · exact h scope' hmem

theorem insert_ready {scope : Scope} (h : ∀ name, scope.get? name ≠ some false) (name : String) :
    ∀ other, (scope.insert name true).get? other ≠ some false := by
  intro other
  rw [NameMap.get?_insert]
  split
  · simp
  · exact h other

theorem AllReady.enter (h : AllReady S) : AllReady (.empty :: S) :=
  h.cons fun name => by simp

theorem AllReady.declared (h : AllReady S) (name : String) : AllReady (declared S name true) := by
  cases S with
  | nil => exact h
  | cons scope outer =>
    exact AllReady.cons (fun scope' hmem => h scope' (List.mem_cons_of_mem _ hmem))
      (insert_ready (h scope (List.mem_cons_self ..)) name)

theorem AllReady.scopesAfter (h : AllReady S) (s : Stmt) : AllReady (scopesAfter S s) := by
  unfold Binding.scopesAfter
  split
  · exact h.declared _
  · exact h

theorem AllReady.parameters (h : AllReady S) (parameters : List Token) :
    AllReady (parameterScope parameters :: S) := by
  refine h.cons ?_
  unfold parameterScope
  suffices hfold : ∀ scope : Scope, (∀ name, scope.get? name ≠ some false) →
      ∀ name, (parameters.foldl (fun scope t => scope.insert t.lexeme true) scope).get? name
        ≠ some false by
    exact hfold .empty fun name => by simp
  induction parameters with
  | nil => exact fun _ hscope => hscope
  | cons t rest ih => exact fun scope hscope => ih _ (insert_ready hscope t.lexeme)

theorem AllReady.instance (h : AllReady S) : AllReady (thisScope :: S) :=
  h.cons (insert_ready (fun name => by simp) selfName)

theorem AllReady.outer_declared (h : AllReady S) (name : String) (ready : Bool) :
    OuterReady (Binding.declared S name ready) := by
  cases S with
  | nil => exact h.outer
  | cons scope outer => exact h.outer

end Ready

/-! ## 3. Placed statements -/

section Placed

variable {good : Token → Prop} {hops : HopTable} {bound : Nat}

/-- A declaration without fault declares a new name. -/
theorem fresh_of_declare {st : State} {name : Token} (h : (st.declare name).faults = []) :
    Fresh st.scopes name.lexeme ∧ (st.declare name).scopes = declared st.scopes name.lexeme false := by
  obtain ⟨more, hmore, -, hnone⟩ := faults_declare st name
  rw [h] at hmore
  exact hnone (List.append_eq_nil_iff.mp hmore.symm).2

theorem fresh_of_introduce {st : State} {name : Token} (h : (st.introduce name).faults = []) :
    Fresh st.scopes name.lexeme := by
  rw [State.introduce, faults_define] at h
  exact (fresh_of_declare h).1

/-- Parameters that are declared without fault have different names. -/
theorem nodup_of_parameters (parameters : List Token) {st : State} {scope : Scope}
    {outer : List Scope} (hscopes : st.scopes = scope :: outer)
    (hclean : (parameters.foldl State.introduce st).faults = []) :
    (parameters.map Token.lexeme).Nodup ∧ ∀ t ∈ parameters, scope.contains t.lexeme = false := by
  induction parameters generalizing st scope with
  | nil => exact ⟨List.nodup_nil, fun _ h => absurd h (by simp)⟩
  | cons t rest ih =>
    have hfirst := Walked.introduce [] st t
    have hlater := hfirst.scopes
    rw [hscopes, declared] at hlater
    have hstart := (walked_parameters rest _ outer hlater).clean hclean
    have hfresh : scope.contains t.lexeme = false :=
      fresh_of_introduce hstart scope (by rw [hscopes]; rfl)
    obtain ⟨hnodup, hrest⟩ := ih hlater hclean
    have hother : ∀ t' ∈ rest, t'.lexeme ≠ t.lexeme ∧ scope.contains t'.lexeme = false := by
      intro t' ht'
      have h := hrest t' ht'
      rw [NameMap.contains_insert] at h
      simpa using h
    refine ⟨?_, ?_⟩
    · rw [List.map_cons, List.nodup_cons]
      refine ⟨?_, hnodup⟩
      intro hmem
      obtain ⟨t', ht', heq⟩ := List.mem_map.mp hmem
      exact (hother t' ht').1 heq
    · intro t' ht'
      rcases List.mem_cons.mp ht' with rfl | ht'
      · exact hfresh
      · exact (hother t' ht').2

theorem hops_introduce (s : State) (name : Token) : (s.introduce name).hops = s.hops := by
  rw [State.introduce, hops_define, hops_declare]

theorem hops_parameters (parameters : List Token) (s : State) :
    (parameters.foldl State.introduce s).hops = s.hops := by
  induction parameters generalizing s with
  | nil => rfl
  | cons t rest ih => rw [List.foldl_cons, ih, hops_introduce]

theorem placed_ret {ctx : Context} {keyword : Token} {value : Option Expr} {st : State}
    (hready : AllReady st.scopes) (hclean : (stmt ctx (.ret keyword value) st).faults = [])
    (hsettles : Settles hops bound (Expr.mentionsOption value) st.hops
      (stmt ctx (.ret keyword value) st).hops) :
    Placed (Bound hops bound) st.scopes (.ret keyword value) := by
  have hcomplain : ∀ (p : Prop) [Decidable p] (cause : BindingCause) (s : State),
      (if p then s.complain keyword cause else s).faults = [] →
      (if p then s.complain keyword cause else s) = s := by
    intro p _ cause s hnone
    split at hnone
    · exact absurd hnone (by simp [State.complain])
    · rename_i hp
      exact if_neg hp
  rw [stmt] at hclean hsettles
  have hsecond := hcomplain _ _ _ ((walked_exprOption ctx value _).clean hclean)
  simp only [hsecond] at hclean hsettles
  have hfirst := hcomplain _ _ _ ((walked_exprOption ctx value _).clean hclean)
  rw [hfirst] at hclean hsettles
  exact .ret (binds_exprOption value st hready.outer hclean hsettles)

mutual
theorem placed_stmt {s : Stmt} : Tidy good s → ∀ (ctx : Context) (st : State),
    AllReady st.scopes → (stmt ctx s st).faults = [] →
    Settles hops bound s.mentions st.hops (stmt ctx s st).hops →
    Placed (Bound hops bound) st.scopes s
  | .expression, ctx, st, hready, hclean, hsettles =>
      .expression (binds_expr _ st hready.outer hclean hsettles)
  | .print, ctx, st, hready, hclean, hsettles =>
      .print (binds_expr _ st hready.outer hclean hsettles)
  | @Tidy.var _ name initializer _, ctx, st, hready, hclean, hsettles => by
      rw [stmt, faults_define] at hclean
      rw [stmt, hops_define, ← hops_declare st name] at hsettles
      obtain ⟨hfresh, hscopes⟩ :=
        fresh_of_declare ((walked_exprOption ctx initializer _).clean hclean)
      have h : Binds hops bound _ _ (exprOption ctx initializer (st.declare name)) :=
        binds_exprOption initializer (st.declare name)
      unfold Binds at h
      rw [hscopes] at h
      exact .var hfresh (h (hready.outer_declared _ _) hclean hsettles)
  | .block h, ctx, st, hready, hclean, hsettles =>
      .block (placed_stmts h ctx (st.enter .empty) hready.enter hclean hsettles)
  | @Tidy.ifThen _ condition thenBranch hname h, ctx, st, hready, hclean, hsettles => by
      have hwalk := walked_expr ctx condition st
      have hwalk' := walked_stmt h ctx (expr ctx condition st)
      obtain ⟨hcondition, hthen⟩ := hsettles.split hwalk hwalk'
      have hplaced := placed_stmt h ctx (expr ctx condition st)
      rw [hwalk.scopes] at hplaced
      exact .ifThen (binds_expr condition st hready.outer (hwalk'.clean hclean) hcondition) hname
        (hplaced hready hclean hthen)
  | @Tidy.ifElse _ condition thenBranch elseBranch hname h hname' h', ctx, st, hready, hclean,
      hsettles => by
      have hwalk := walked_expr ctx condition st
      have hwalk' := walked_stmt h ctx (expr ctx condition st)
      have hwalk'' := walked_stmt h' ctx (stmt ctx thenBranch (expr ctx condition st))
      obtain ⟨hfront, helse⟩ := hsettles.split (hwalk.trans hwalk') hwalk''
      obtain ⟨hcondition, hthen⟩ := hfront.split hwalk hwalk'
      have hplaced := placed_stmt h ctx (expr ctx condition st)
      have hplaced' := placed_stmt h' ctx (stmt ctx thenBranch (expr ctx condition st))
      rw [scopesAfter, hname] at hwalk'
      rw [hwalk'.scopes, hwalk.scopes] at hplaced'
      rw [hwalk.scopes] at hplaced
      have hclean' := hwalk''.clean hclean
      exact .ifElse (binds_expr condition st hready.outer (hwalk'.clean hclean') hcondition) hname
        (hplaced hready hclean' hthen) hname' (hplaced' hready hclean helse)
  | @Tidy.loop _ condition body hname h, ctx, st, hready, hclean, hsettles => by
      have hwalk := walked_expr ctx condition st
      have hwalk' := walked_stmt h ctx (expr ctx condition st)
      obtain ⟨hcondition, hbody⟩ := hsettles.split hwalk hwalk'
      have hplaced := placed_stmt h ctx (expr ctx condition st)
      rw [hwalk.scopes] at hplaced
      exact .loop (binds_expr condition st hready.outer (hwalk'.clean hclean) hcondition) hname
        (hplaced hready hclean hbody)
  | .function (@TidyRoutine.mk _ name parameters body _ _ hbody), ctx, st, hready, hclean,
      hsettles => by
      have hname := Walked.introduce [] st name
      have hparameters :=
        walked_parameters (s := (st.introduce name).enter .empty) parameters .empty _ rfl
      have hrest := walked_stmts hbody { ctx with routine := .function }
        (parameters.foldl State.introduce ((st.introduce name).enter .empty))
      have hclean' := hrest.clean hclean
      have hplaced := placed_stmts hbody { ctx with routine := .function }
        (parameters.foldl State.introduce ((st.introduce name).enter .empty))
      have hscopes : (parameters.foldl State.introduce ((st.introduce name).enter .empty)).scopes
          = parameterScope parameters :: declared st.scopes name.lexeme true := by
        rw [hparameters.scopes, hname.scopes]
        rfl
      have hhops : (parameters.foldl State.introduce ((st.introduce name).enter .empty)).hops
          = st.hops := (hops_parameters _ _).trans (hops_introduce st name)
      rw [hhops, hscopes] at hplaced
      exact .function (fresh_of_introduce (hparameters.clean hclean'))
        (.mk (nodup_of_parameters parameters rfl hclean').1
          (hplaced ((hready.declared _).parameters parameters) hclean hsettles))
  | @Tidy.ret _ keyword value, ctx, st, hready, hclean, hsettles =>
      placed_ret hready hclean hsettles
  | @Tidy.classDecl _ name methods _ h, ctx, st, hready, hclean, hsettles => by
      have hname := Walked.introduce [] st name
      have hrest := walked_methods methods ((st.introduce name).enter thisScope)
      have hplaced := placed_routines h ((st.introduce name).enter thisScope)
      have hscopes : ((st.introduce name).enter thisScope).scopes
          = thisScope :: declared st.scopes name.lexeme true := by
        rw [State.enter, hname.scopes]
      have hhops : ((st.introduce name).enter thisScope).hops = st.hops := hops_introduce st name
      rw [hhops, hscopes] at hplaced
      exact .classDecl (fresh_of_introduce (hrest.clean hclean))
        (hplaced (hready.declared _).instance hclean hsettles)

theorem placed_stmts {body : List Stmt} : TidyAll good body → ∀ (ctx : Context) (st : State),
    AllReady st.scopes → (stmts ctx body st).faults = [] →
    Settles hops bound (Stmt.mentionsAll body) st.hops (stmts ctx body st).hops →
    PlacedAll (Bound hops bound) st.scopes body
  | .nil, _, _, _, _, _ => .nil
  | @TidyAll.cons _ s rest h hrest, ctx, st, hready, hclean, hsettles => by
      have hwalk := walked_stmt h ctx st
      have hwalk' := walked_stmts hrest ctx (stmt ctx s st)
      obtain ⟨hfirst, hlater⟩ := hsettles.split hwalk hwalk'
      have hplaced := placed_stmts hrest ctx (stmt ctx s st)
      rw [hwalk.scopes] at hplaced
      exact .cons (placed_stmt h ctx st hready (hwalk'.clean hclean) hfirst)
        (hplaced (hready.scopesAfter s) hclean hlater)

theorem placed_method {r : Routine} : TidyRoutine good r → ∀ st : State,
    AllReady st.scopes → (routine r st).faults = [] →
    Settles hops bound r.mentions st.hops (routine r st).hops →
    PlacedRoutine (Bound hops bound) st.scopes r
  | @TidyRoutine.mk _ name parameters body _ _ hbody, st, hready, hclean, hsettles => by
      have hparameters := walked_parameters (s := st.enter .empty) parameters .empty _ rfl
      have hrest := walked_stmts hbody ⟨Enclosing.ofMethod ⟨name, parameters, body⟩, true⟩
        (parameters.foldl State.introduce (st.enter .empty))
      have hplaced := placed_stmts hbody ⟨Enclosing.ofMethod ⟨name, parameters, body⟩, true⟩
        (parameters.foldl State.introduce (st.enter .empty))
      rw [hops_parameters, hparameters.scopes] at hplaced
      exact .mk (nodup_of_parameters parameters rfl (hrest.clean hclean)).1
        (hplaced (hready.parameters parameters) hclean hsettles)

theorem placed_routines {methods : List Routine} : TidyMethods good methods → ∀ st : State,
    AllReady st.scopes → (routines methods st).faults = [] →
    Settles hops bound (Routine.mentionsAll methods) st.hops (routines methods st).hops →
    PlacedMethods (Bound hops bound) st.scopes methods
  | .nil, _, _, _, _ => .nil
  | @TidyMethods.cons _ method rest h hrest, st, hready, hclean, hsettles => by
      have hwalk := walked_method method st
      have hwalk' := walked_methods rest (routine method st)
      obtain ⟨hfirst, hlater⟩ := hsettles.split hwalk hwalk'
      have hplaced := placed_routines hrest (routine method st)
      rw [hwalk.scopes] at hplaced
      exact .cons (placed_method h st hready (hwalk'.clean hclean) hfirst)
        (hplaced hready hclean hlater)
end

end Placed

/-! ## 4. The name of the instance -/

/-- Wherever the name of the instance is declared, it can be read. -/
def InstanceReady (S : List Scope) : Prop :=
  ∀ scope ∈ S, scope.get? selfName ≠ some false

section Instance

variable {P : List Scope → Mention → Prop} {good : Token → Prop} {S : List Scope}

theorem InstanceReady.cons {scope : Scope} (h : InstanceReady S)
    (hscope : scope.get? selfName ≠ some false) : InstanceReady (scope :: S) := by
  intro scope' hscope'
  rcases List.mem_cons.mp hscope' with rfl | hmem
  · exact hscope
  · exact h scope' hmem

theorem InstanceReady.declared {name : String} (h : InstanceReady S) (hname : name ≠ selfName)
    (ready : Bool) : InstanceReady (declared S name ready) := by
  cases S with
  | nil => exact h
  | cons scope outer =>
    refine InstanceReady.cons (fun scope' hmem => h scope' (List.mem_cons_of_mem _ hmem)) ?_
    rw [NameMap.get?_insert, if_neg (Ne.symm hname)]
    exact h scope (List.mem_cons_self ..)

theorem InstanceReady.instance (h : InstanceReady S) : InstanceReady (thisScope :: S) :=
  h.cons (insert_ready (fun name => by simp) selfName selfName)

theorem InstanceReady.parameters {parameters : List Token} (h : InstanceReady S)
    (hnames : ∀ t ∈ parameters, t.lexeme ≠ selfName) :
    InstanceReady (parameterScope parameters :: S) := by
  refine h.cons ?_
  have hcontains := contains_parameterScope parameters selfName
  have hnot : selfName ∉ parameters.map Token.lexeme := by
    intro hmem
    obtain ⟨t, ht, heq⟩ := List.mem_map.mp hmem
    exact hnames t ht heq
  rw [decide_eq_false hnot, NameMap.contains] at hcontains
  cases hget : (parameterScope parameters).get? selfName with
  | none => simp
  | some ready => rw [hget] at hcontains; exact absurd hcontains (by simp)

theorem InstanceReady.scopesAfter {s : Stmt} (h : InstanceReady S)
    (hgood : ∀ t, good t → t.lexeme ≠ selfName) (htidy : Tidy good s) :
    InstanceReady (scopesAfter S s) := by
  cases htidy with
  | var hname => exact h.declared (hgood _ hname) true
  | function hroutine =>
    cases hroutine with
    | mk hname => exact h.declared (hgood _ hname) true
  | classDecl hname => exact h.declared (hgood _ hname) true
  | expression | print | block | ifThen | ifElse | loop | ret => exact h

mutual
/-- Where the name of the instance is never declared by a script, it can always be read. -/
theorem Placed.instanceReady {S : List Scope} {s : Stmt}
    (hgood : ∀ t, good t → t.lexeme ≠ selfName) : Placed P S s → Tidy good s →
    InstanceReady S → Placed (fun S m => P S m ∧ InstanceReady S) S s
  | .expression h, _, hready => .expression fun m hm => ⟨h m hm, hready⟩
  | .print h, _, hready => .print fun m hm => ⟨h m hm, hready⟩
  | .var hfresh h, .var hname, hready =>
      .var hfresh fun m hm => ⟨h m hm, hready.declared (hgood _ hname) false⟩
  | .block h, .block htidy, hready => .block (h.instanceReady hgood htidy (hready.cons (by simp)))
  | .ifThen h hthen hbranch, .ifThen _ htidy, hready =>
      .ifThen (fun m hm => ⟨h m hm, hready⟩) hthen (hbranch.instanceReady hgood htidy hready)
  | .ifElse h hthen hbranch helse hbranch', .ifElse _ htidy _ htidy', hready =>
      .ifElse (fun m hm => ⟨h m hm, hready⟩) hthen (hbranch.instanceReady hgood htidy hready) helse
        (hbranch'.instanceReady hgood htidy' hready)
  | .loop h hbody hplaced, .loop _ htidy, hready =>
      .loop (fun m hm => ⟨h m hm, hready⟩) hbody (hplaced.instanceReady hgood htidy hready)
  | .function hfresh h, .function (.mk hname hparameters hbody), hready =>
      .function hfresh (h.instanceReady hgood (.mk hname hparameters hbody)
        (hready.declared (hgood _ hname) true))
  | .ret h, _, hready => .ret fun m hm => ⟨h m hm, hready⟩
  | .classDecl hfresh h, .classDecl hname hmethods, hready =>
      .classDecl hfresh
        (h.instanceReady hgood hmethods (hready.declared (hgood _ hname) true).instance)

theorem PlacedAll.instanceReady {S : List Scope} {body : List Stmt}
    (hgood : ∀ t, good t → t.lexeme ≠ selfName) : PlacedAll P S body →
    TidyAll good body → InstanceReady S →
    PlacedAll (fun S m => P S m ∧ InstanceReady S) S body
  | .nil, _, _ => .nil
  | .cons h hrest, .cons htidy htidyRest, hready =>
      .cons (h.instanceReady hgood htidy hready)
        (hrest.instanceReady hgood htidyRest (hready.scopesAfter hgood htidy))

theorem PlacedRoutine.instanceReady {S : List Scope} {r : Routine}
    (hgood : ∀ t, good t → t.lexeme ≠ selfName) : PlacedRoutine P S r →
    TidyRoutine good r → InstanceReady S →
    PlacedRoutine (fun S m => P S m ∧ InstanceReady S) S r
  | .mk hnodup h, .mk _ hparameters hbody, hready =>
      .mk hnodup (h.instanceReady hgood hbody
        (hready.parameters fun t ht => hgood t (hparameters t ht)))

theorem PlacedMethods.instanceReady {S : List Scope} {methods : List Routine}
    (hgood : ∀ t, good t → t.lexeme ≠ selfName) : PlacedMethods P S methods →
    TidyMethods good methods → InstanceReady S →
    PlacedMethods (fun S m => P S m ∧ InstanceReady S) S methods
  | .nil, _, _ => .nil
  | .cons h hrest, .cons htidy htidyRest, hready =>
      .cons (h.instanceReady hgood htidy hready) (hrest.instanceReady hgood htidyRest hready)
end

/-- A mention is bound; the name of the instance can be read where it is declared, and a mention
of the instance has that name. -/
structure Addressed (hops : HopTable) (bound : Nat) (S : List Scope) (m : Mention) : Prop
    extends Bound hops bound S m where
  instanceReady : InstanceReady S
  spelled : m.role = .self → m.token.lexeme = selfName

/-- What a mention reads can be read. -/
theorem Addressed.readable {hops : HopTable} {bound : Nat} {m : Mention}
    (h : Addressed hops bound S m) (hrole : m.role ≠ .assign) {k : Nat} {scope : Scope}
    (hidx : S.findIdx? (·.contains m.token.lexeme) = some k) (hscope : S[k]? = some scope) :
    scope.get? m.token.lexeme = some true := by
  cases hcase : m.role with
  | read => exact h.ready hcase k scope hidx hscope
  | assign => exact absurd hcase hrole
  | self =>
    have hready := h.instanceReady scope (List.mem_of_getElem? hscope)
    obtain ⟨hlt, hcontains, -⟩ := List.findIdx?_eq_some_iff_getElem.mp hidx
    rw [List.getElem?_eq_getElem hlt, Option.some_inj] at hscope
    rw [hscope, NameMap.contains] at hcontains
    rw [h.spelled hcase] at hcontains ⊢
    obtain ⟨ready, hget⟩ := Option.isSome_iff_exists.mp hcontains
    cases ready with
    | true => exact hget
    | false => exact absurd hget hready

/-- A mention stays addressed when hop counts of later mentions are added. -/
theorem Addressed.grow {hops hops' : HopTable} {bound bound' : Nat} {m : Mention}
    (h : Addressed hops bound S m) (hle : bound ≤ bound')
    (hold : ∀ id, id < bound → hops'.get? id = hops.get? id) : Addressed hops' bound' S m where
  lt := Nat.lt_of_lt_of_le h.lt hle
  hop := (hold m.id h.lt).trans h.hop
  ready := h.ready
  instanceReady := h.instanceReady
  spelled := h.spelled

end Instance

/-! ## 5. Scripts -/

section Scripts

variable {good : Token → Prop} {statements : List Stmt} {hops : HopTable}

/-- A script that is bound without faults is in order, and its mentions are bound. -/
theorem placed_of_resolve {bound : Nat} (htidy : TidyAll good statements)
    (hnodup : ((Stmt.mentionsAll statements).map Mention.id).Nodup)
    (hlt : ∀ m ∈ Stmt.mentionsAll statements, m.id < bound)
    (hfresh : ∀ m ∈ Stmt.mentionsAll statements, hops.get? m.id = none)
    (hclean : (resolve statements hops).2 = []) :
    PlacedAll (Bound (resolve statements hops).1 bound) [] statements :=
  placed_stmts htidy .top ⟨[], [], hops, []⟩ (fun _ h => absurd h (by simp)) hclean
    ⟨hnodup, hlt, hfresh, fun _ _ => rfl⟩

/-- Binding a script changes the hop counts of its own mentions only. -/
theorem get?_resolve (htidy : TidyAll good statements) {id : Nat}
    (h : ∀ m ∈ Stmt.mentionsAll statements, m.id ≠ id) :
    (resolve statements hops).1.get? id = hops.get? id :=
  (walked_stmts htidy .top ⟨[], [], hops, []⟩).hops id h

/-- The faults of binding are static. -/
theorem isStatic_of_mem_resolve (htidy : TidyAll good statements) :
    ∀ f ∈ (resolve statements hops).2, f.isStatic = true := by
  obtain ⟨more, hmore, hstatic⟩ := (walked_stmts htidy .top ⟨[], [], hops, []⟩).faults
  intro f hf
  refine hstatic f ?_
  have hfaults : (resolve statements hops).2 = [] ++ more := hmore
  rw [hfaults] at hf
  exact hf

end Scripts

end ScriptLang.Binding
