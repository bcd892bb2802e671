/-
ScriptLang.Proofs.Binding.Distance — hop counts are static distances.

The hop count of a mention is compared with what its place in the script says:
the number of scopes between the mention and the nearest scope around it that
has declared its name before it (`Surroundings.Nearest`). Faults do not matter,
since a second declaration of a name leaves the name declared.

The mentions of a script are taken to have different identities, as they have
in every script that is read. Then what is noted for a mention when the walk
comes by it (`Noted`) is what the table says in the end.
-/
import ScriptLang.Proofs.Binding.Passage

namespace ScriptLang

/-! ## 1. The nearest scope -/

theorem Surroundings.findIdx?_eq_some (around : Surroundings) (name : String) (distance : Nat) :
    around.scopes.findIdx? (decide <| name ∈ ·) = some distance ↔
      around.Nearest name distance := by
  rw [List.findIdx?_eq_some_iff_getElem]
  constructor
  · rintro ⟨hlt, hmem, hbefore⟩
    refine ⟨⟨_, List.getElem?_eq_getElem hlt, by simpa using hmem⟩, ?_⟩
    intro k hk names hnames
    have hearlier := hbefore k hk
    rw [List.getElem?_eq_getElem (Nat.lt_trans hk hlt)] at hnames
    rw [← Option.some.inj hnames]
    simpa using hearlier
  · rintro ⟨⟨names, hnames, hmem⟩, hhidden⟩
    obtain ⟨hlt, hget⟩ := List.getElem?_eq_some_iff.mp hnames
    refine ⟨hlt, by simpa [hget] using hmem, ?_⟩
    intro k hk
    have hknown := List.getElem?_eq_getElem (Nat.lt_trans hk hlt)
    simpa using hhidden k hk _ hknown

theorem Surroundings.findIdx?_eq_none (around : Surroundings) (name : String) :
    around.scopes.findIdx? (decide <| name ∈ ·) = none ↔ ¬ around.Declares name := by
  simp [List.findIdx?_eq_none_iff, Declares]

namespace Binding

/-! ## 2. Mentions -/

/-- Mentions with different identities get the distances to the open scopes that declare their
names; where no scope does, an entry stays as it was. -/
def Noted (ctx : Context) (ms : List Mention) (s s' : State) : Prop :=
  (ms.map Mention.id).Nodup → ∀ m ∈ ms, (m.role = .self → ctx.insideClass = true) →
    s'.hops.get? m.id =
      (s.scopes.findIdx? (·.contains m.token.lexeme)).or (s.hops.get? m.id)

section Mentions

variable {ctx : Context} {ms ms' : List Mention} {s s' s'' : State} {S : List Scope}

theorem noted_nil : Noted ctx [] s s' := by
  intro _ m hm
  simp at hm

theorem noted_note (ctx : Context) (m : Mention) (s : State) :
    Noted ctx [m] s (s.note m.id m.token.lexeme) := by
  intro _ m' hm' _
  obtain rfl := List.mem_singleton.mp hm'
  unfold State.note
  split
  · rename_i hfound
    simp [HopTable.get?_insert, hfound]
  · rename_i hfound
    simp [hfound]

theorem Noted.append (hwalk : Walked ms s.scopes s s') (h : Noted ctx ms s s')
    (hwalk' : Walked ms' S s' s'') (h' : Noted ctx ms' s' s'') : Noted ctx (ms ++ ms') s s'' := by
  intro hids m hm hself
  rw [List.map_append, List.nodup_append] at hids
  obtain ⟨hids, hids', hapart⟩ := hids
  rcases List.mem_append.mp hm with hm | hm
  · have hkept := hwalk'.hops m.id fun m' hm' =>
      Ne.symm (hapart _ (List.mem_map_of_mem hm) _ (List.mem_map_of_mem hm'))
    rw [hkept, h hids m hm hself]
  · have hkept := hwalk.hops m.id fun m' hm' =>
      hapart _ (List.mem_map_of_mem hm') _ (List.mem_map_of_mem hm)
    rw [h' hids' m hm hself, hwalk.scopes, hkept]

theorem Noted.perm (h : Noted ctx ms s s') (hperm : ms.Perm ms') : Noted ctx ms' s s' := by
  intro hids m hm
  exact h ((hperm.map Mention.id).nodup_iff.mpr hids) m (hperm.mem_iff.mpr hm)

theorem noted_read (id : Nat) (name : Token) (s : State) :
    Noted ctx [⟨.read, id, name⟩] s (expr ctx (.read id name) s) := by
  rw [expr]
  split
  · exact noted_note ctx ⟨.read, id, name⟩ (s.complain name .ownInitializer)
  · exact noted_note ctx ⟨.read, id, name⟩ s

theorem noted_self (id : Nat) (keyword : Token) (s : State) :
    Noted ctx [⟨.self, id, keyword⟩] s (expr ctx (.self id keyword) s) := by
  rw [expr]
  split
  · exact noted_note ctx ⟨.self, id, keyword⟩ s
  · rename_i houtside
    intro _ m hm hself
    obtain rfl := List.mem_singleton.mp hm
    exact absurd (hself rfl) houtside

theorem threaded_noted (ctx : Context) : Threaded ctx fun ms s s' =>
    Walked ms s.scopes s s' ∧ Noted ctx ms s s' where
  refl s := ⟨Walked.refl [] s, noted_nil⟩
  trans h h' := ⟨(threaded_walked ctx).trans h.1 h'.1, Noted.append h.1 h.2 h'.1 h'.2⟩
  perm h hperm := ⟨(threaded_walked ctx).perm h.1 hperm, h.2.perm hperm⟩
  read id name s := ⟨(threaded_walked ctx).read id name s, noted_read id name s⟩
  assign id name s :=
    ⟨(threaded_walked ctx).assign id name s, noted_note ctx ⟨.assign, id, name⟩ s⟩
  self id keyword s := ⟨(threaded_walked ctx).self id keyword s, noted_self id keyword s⟩

theorem noted_expr (ctx : Context) (e : Expr) (s : State) :
    Noted ctx e.mentions s (expr ctx e s) :=
  ((threaded_noted ctx).expr e s).2

theorem noted_exprOption (ctx : Context) (e : Option Expr) (s : State) :
    Noted ctx (Expr.mentionsOption e) s (exprOption ctx e s) :=
  ((threaded_noted ctx).exprOption e s).2

end Mentions

/-! ## 3. Statements -/

/-- The open scopes declare exactly these names, whether or not they can be read. -/
def Shows (S : List Scope) (scopes : List (List String)) : Prop :=
  List.Forall₂ (fun scope names => ∀ name, scope.contains name = true ↔ name ∈ names) S scopes

section Statements

variable {st : State} {around : Surroundings} {ctx : Context}

theorem Shows.findIdx? {S : List Scope} {scopes : List (List String)} (h : Shows S scopes)
    (name : String) : S.findIdx? (·.contains name) = scopes.findIdx? (decide <| name ∈ ·) := by
  induction h with
  | nil => rfl
  | @cons scope names _ _ hscope _ ih =>
    have hcontains : scope.contains name = decide (name ∈ names) := by
      rw [Bool.eq_iff_iff, decide_eq_true_iff]
      exact hscope name
    rw [List.findIdx?_cons, List.findIdx?_cons, hcontains, ih]

theorem State.At.shows (h : st.At around) : Shows st.scopes around.scopes :=
  h.scopes.imp fun _ _ hscope => hscope.contains_iff

/-- A variable shows from its own initializer on, also if it was declared before. -/
theorem State.At.shows_declare (h : st.At around) (name : Token) :
    Shows (st.declare name).scopes (around.declare [name.lexeme]).scopes := by
  obtain ⟨scopes, initializing, hops, faults⟩ := st
  obtain ⟨hosts, names⟩ := around
  have houter := h.shows
  cases h.scopes with
  | nil => exact .nil
  | @cons scope names outer outers hscope _ =>
    cases houter with
    | cons hshows houter =>
      by_cases hcontains : scope.contains name.lexeme = true
      · simp only [State.declare, hcontains, if_true]
        refine .cons ?_ houter
        intro other
        by_cases heq : other = name.lexeme <;> simp [heq, hcontains, hshows]
      · simp only [State.declare, hcontains]
        refine .cons ?_ houter
        intro other
        simp [NameMap.contains_insert, hshows, or_comm]

/-- The walk over a statement notes the mentions of its own expressions, from `st₁` to `st₂`, before
it goes over the statements within. -/
structure Starts (ctx : Context) (around : Surroundings) (s : Stmt) (st st₁ st₂ : State)
    (inner : List Mention) : Prop where
  mentions : s.mentions = s.ownMentions ++ inner
  shows : Shows st₁.scopes (around.within s).scopes
  hops : st₁.hops = st.hops
  noted : Noted ctx s.ownMentions st₁ st₂
  kept : ∀ id, (∀ m ∈ inner, m.id ≠ id) → (stmt ctx s st).hops.get? id = st₂.hops.get? id

theorem starts_ret (h : st.At around) (ctx : Context) (keyword : Token) (value : Option Expr) :
    ∃ st₁ st₂ inner, Starts ctx around (.ret keyword value) st st₁ st₂ inner := by
  have hhops : ∀ (p : Prop) [Decidable p] (st : State) (cause : BindingCause),
      (if p then st.complain keyword cause else st).hops = st.hops := by
    intro p _ st cause
    split <;> rfl
  refine ⟨_, _, [], by simp [Stmt.mentions, Stmt.ownMentions],
    ((h.complainIf _ keyword _).complainIf _ keyword _).shows, ?_, noted_exprOption ctx value _,
    fun _ _ => rfl⟩
  rw [hhops, hhops]

theorem starts (h : st.At around) (ctx : Context) (s : Stmt) :
    ∃ st₁ st₂ inner, Starts ctx around s st st₁ st₂ inner := by
  cases s with
  | expression value =>
    exact ⟨st, _, [], by simp [Stmt.mentions, Stmt.ownMentions], h.shows, rfl,
      noted_expr ctx value st, fun _ _ => rfl⟩
  | print value =>
    exact ⟨st, _, [], by simp [Stmt.mentions, Stmt.ownMentions], h.shows, rfl,
      noted_expr ctx value st, fun _ _ => rfl⟩
  | var name initializer =>
    refine ⟨st.declare name, _, [], by simp [Stmt.mentions, Stmt.ownMentions],
      h.shows_declare name, hops_declare st name, noted_exprOption ctx initializer _, ?_⟩
    intro id _
    rw [stmt, hops_define]
  | ifThen condition thenBranch =>
    exact ⟨st, _, thenBranch.mentions, rfl, h.shows, rfl, noted_expr ctx condition st,
      (walked_statement ctx thenBranch _).hops⟩
  | ifElse condition thenBranch elseBranch =>
    have hbranches := (walked_statement ctx thenBranch (expr ctx condition st)).trans
      (walked_statement ctx elseBranch _)
    exact ⟨st, _, _, by simp [Stmt.mentions, Stmt.ownMentions], h.shows, rfl,
      noted_expr ctx condition st, hbranches.hops⟩
  | loop condition body =>
    exact ⟨st, _, body.mentions, rfl, h.shows, rfl, noted_expr ctx condition st,
      (walked_statement ctx body _).hops⟩
  | ret keyword value => exact starts_ret h ctx keyword value
  | block body =>
    exact ⟨st, st, _, rfl, h.shows, rfl, noted_nil, (walked_statement ctx (.block body) st).hops⟩
  | function routine =>
    exact ⟨st, st, _, rfl, h.shows, rfl, noted_nil,
      (walked_statement ctx (.function routine) st).hops⟩
  | classDecl name methods =>
    exact ⟨st, st, _, rfl, h.shows, rfl, noted_nil,
      (walked_statement ctx (.classDecl name methods) st).hops⟩

end Statements

/-! ## 4. Scripts -/

section Scripts

variable {script : List Stmt} {around : Surroundings} {m : Mention}

/-- Of mentions with different identities, those in the middle differ from those around. -/
theorem ids_apart {before own after : List Mention}
    (h : ((before ++ (own ++ after)).map Mention.id).Nodup) :
    (own.map Mention.id).Nodup ∧ ∀ m ∈ own,
      (∀ m' ∈ before, m'.id ≠ m.id) ∧ ∀ m' ∈ after, m'.id ≠ m.id := by
  simp only [List.map_append, List.nodup_append, List.mem_append, List.mem_map] at h
  grind

/-- The hop count of a mention in the end, from the scopes around it and the count before. -/
theorem get?_walk (hops : HopTable) (hids : ((Stmt.mentionsAll script).map Mention.id).Nodup)
    (h : Mentioned script around m) (hself : m.role = .self → around.InMethod) :
    (walk script hops).hops.get? m.id =
      (around.scopes.findIdx? (decide <| m.token.lexeme ∈ ·)).or (hops.get? m.id) := by
  obtain ⟨outer, s, ⟨rest, hrow⟩, hm, rfl⟩ := h
  obtain ⟨before, after, st, hpasses⟩ := passes_row hrow hops
  obtain ⟨st₁, st₂, inner, hstarts⟩ := starts hpasses.state (contextOf outer.hosts) s
  have hmentions : Stmt.mentionsAll script =
      before ++ (s.ownMentions ++ (inner ++ Stmt.mentionsAll rest ++ after)) := by
    rw [hpasses.mentions, Stmt.mentionsAll, hstarts.mentions]
    simp
  rw [hmentions] at hids
  obtain ⟨hown, hapart⟩ := ids_apart hids
  obtain ⟨hbefore, hafter⟩ := hapart m hm
  have hinside : m.role = .self → (contextOf outer.hosts).insideClass = true := by
    intro hrole
    have hmethod := hself hrole
    rw [Surroundings.inMethod_within] at hmethod
    exact (insideClass_contextOf outer).mpr hmethod
  calc (walk script hops).hops.get? m.id
      = (stmts (contextOf outer.hosts) (s :: rest) st).hops.get? m.id :=
        hpasses.left.hops m.id fun m' hm' => hafter m' (by simp [hm'])
    _ = (stmt (contextOf outer.hosts) s st).hops.get? m.id :=
        (walked_statements _ rest _).hops m.id fun m' hm' => hafter m' (by simp [hm'])
    _ = st₂.hops.get? m.id := hstarts.kept m.id fun m' hm' => hafter m' (by simp [hm'])
    _ = (st₁.scopes.findIdx? (·.contains m.token.lexeme)).or (st₁.hops.get? m.id) :=
        hstarts.noted hown m hm hinside
    _ = ((outer.within s).scopes.findIdx? (decide <| m.token.lexeme ∈ ·)).or (hops.get? m.id) := by
        rw [hstarts.shows.findIdx?, hstarts.hops, hpasses.reached.hops m.id hbefore]

end Scripts

/-- The hop count of a mention is the number of scopes between it and the nearest scope around it
that declares its name before it, and a mention has a hop count only if there is such a scope. All
mentions of the script are meant, with the keyword `this` where it stands in a method; an entry
that the table had before under the identity of a mention stays if no scope declares the name. -/
theorem resolve_measures_distance (statements : List Stmt) (hops : HopTable)
    (hids : ((Stmt.mentionsAll statements).map Mention.id).Nodup) :
    (∀ m ∈ Stmt.mentionsAll statements, ∃ around, Mentioned statements around m) ∧
    ∀ around m, Mentioned statements around m → (m.role = .self → around.InMethod) →
      (∀ distance, around.Nearest m.token.lexeme distance →
        (resolve statements hops).1.get? m.id = some distance) ∧
      (¬ around.Declares m.token.lexeme →
        (resolve statements hops).1.get? m.id = hops.get? m.id) ∧
      (hops.get? m.id = none →
        ((resolve statements hops).1.get? m.id = none ↔ ¬ around.Declares m.token.lexeme)) := by
  refine ⟨mentioned_of_row statements .script, ?_⟩
  intro around m hmentioned hself
  have hcount : (resolve statements hops).1.get? m.id = _ := get?_walk hops hids hmentioned hself
  rw [hcount]
  refine ⟨?_, ?_, ?_⟩
  · intro distance hnearest
    rw [(around.findIdx?_eq_some _ _).mpr hnearest, Option.some_or]
  · intro hnone
    rw [(around.findIdx?_eq_none _).mpr hnone, Option.none_or]
  · intro hfresh
    rw [hfresh, Option.or_none, around.findIdx?_eq_none]

/-- A method that uses its parameter in a block, which then declares the name anew and reads it too
early:

    class C { m(x) { { x; this; var x = x; } y; } }
-/
def hidingMethod : List Stmt :=
  let word (lexeme : String) : Token := ⟨.identifier, lexeme, none, 1⟩
  let self : Token := ⟨.thisWord, selfName, none, 1⟩
  let block := [Stmt.expression (.read 0 (word "x")), .expression (.self 1 self),
    .var (word "x") (some (.read 2 (word "x")))]
  [.classDecl (word "C")
    [⟨word "m", [word "x"], [.block block, .expression (.read 3 (word "y"))]⟩]]

theorem resolve_measures_distance_hidingMethod :
    ((Stmt.mentionsAll hidingMethod).map Mention.id).Nodup ∧
    (resolve hidingMethod .empty).2 ≠ [] ∧
    (resolve hidingMethod .empty).1.get? 0 = some 1 ∧
    (resolve hidingMethod .empty).1.get? 1 = some 2 ∧
    (resolve hidingMethod .empty).1.get? 2 = some 0 ∧
    (resolve hidingMethod .empty).1.get? 3 = none := by
  have hids : ((Stmt.mentionsAll hidingMethod).map Mention.id).Nodup := by decide
  have hmeasures := (resolve_measures_distance hidingMethod .empty hids).2
  have hinside : ∀ scopes, Surroundings.InMethod ⟨[.method "m"], scopes⟩ :=
    fun _ => ⟨"m", List.mem_cons_self⟩
  have hbody : Row hidingMethod ⟨[.method "m"], [["x"], [selfName]]⟩ _ :=
    .method .script List.mem_cons_self
  have hread : Row hidingMethod ⟨[.method "m"], [[], ["x"], [selfName]]⟩ _ := hbody.block
  have hself : Row hidingMethod ⟨[.method "m"], [[], ["x"], [selfName]]⟩ _ := hread.rest
  have hvar : Row hidingMethod ⟨[.method "m"], [[], ["x"], [selfName]]⟩ _ := hself.rest
  have hlast : Row hidingMethod ⟨[.method "m"], [["x"], [selfName]]⟩ _ := hbody.rest
  refine ⟨hids, by decide, ?_, ?_, ?_, ?_⟩
  · refine (hmeasures _ _ ⟨_, _, ⟨_, hread⟩, List.mem_cons_self, rfl⟩ fun _ => hinside _).1 1 ?_
    exact (Surroundings.findIdx?_eq_some _ _ _).mp (by decide)
  · refine (hmeasures _ _ ⟨_, _, ⟨_, hself⟩, List.mem_cons_self, rfl⟩ fun _ => hinside _).1 2 ?_
    exact (Surroundings.findIdx?_eq_some _ _ _).mp (by decide)
  · refine (hmeasures _ _ ⟨_, _, ⟨_, hvar⟩, List.mem_cons_self, rfl⟩ fun _ => hinside _).1 0 ?_
    exact (Surroundings.findIdx?_eq_some _ _ _).mp (by decide)
  · refine ((hmeasures _ _ ⟨_, _, ⟨_, hlast⟩, List.mem_cons_self, rfl⟩ fun _ => hinside _).2.2
      rfl).mpr ?_
    exact (Surroundings.findIdx?_eq_none _ _).mp (by decide)

end Binding

end ScriptLang
