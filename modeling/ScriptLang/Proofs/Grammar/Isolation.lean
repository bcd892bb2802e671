/-
ScriptLang.Proofs.Grammar.Isolation — a fault stays in its sentence.

A source is put together from units (`SourceUnit`). Each is free of faults by
itself, or it is one sentence up to its semicolon with whatever faults. Then the
statements and the faults of the source are those of its units, one after the
other (`parse_isolates_units`).

For a unit without faults this is because phrases do not depend on what follows
them. A sentence with faults is read alongside itself in a source of its own
(`Proofs.Grammar.Alongside`). It fails at the same place in both, before its
semicolon or at it, and reading resumes right after the semicolon.
-/
import ScriptLang.Proofs.Grammar.Acceptance
import ScriptLang.Proofs.Grammar.Alongside

namespace ScriptLang.Grammar

open Phrase (Script)

/-! ## 1. Statements up to a semicolon -/

namespace Setting

variable {c : Setting} {j k : Nat}

/-- From a statement of the first source to the statement of the second. -/
abbrev laterStmt (c : Setting) (s : Stmt) : Stmt := s.relabel (.renumber c.ids)

/-- Readings that take the semicolon, both or none. -/
def Closes (c : Setting) {α : Type} (g : α → α) (x x' : Reading α) : Prop :=
  ∀ j, c.Alongside (c.Within j) x x' g fun _ => c.Past

section Readings

variable {α : Type} {g : α → α} {mid : α → State → State → Prop}
variable {f f' : Option Token → Reading α}

/-- A boundary other than the semicolon does not come next. -/
theorem Alongside.acceptNone {kinds : List Kind}
    (hkinds : ∀ kind ∈ kinds, kind ∈ boundaryKinds ∧ kind ≠ .semicolon)
    (hnone : c.Alongside (c.Within j) (f none) (f' none) g mid) :
    c.Alongside (c.Within j) (accept? kinds >>= f) (accept? kinds >>= f') g mid := by
  intro s s' hwithin
  obtain ⟨t, rest, rest', hahead, hahead', hnext⟩ := hwithin.next
  have hkind : t.kind ∉ kinds := by
    intro hmem
    rcases hnext with ⟨hplain, -⟩ | ⟨hsemicolon, -⟩
    · exact hplain (hkinds _ hmem).1
    · exact (hkinds _ hmem).2 hsemicolon
  rw [acceptThen_eq hahead, acceptThen_eq hahead', if_neg hkind, if_neg hkind]
  exact hnone s s' hwithin

/-- What needs a boundary other than the semicolon fails. -/
theorem Alongside.unmet {kind : Kind} (hkind : kind ∈ boundaryKinds) (hne : kind ≠ .semicolon)
    (wanted : Wanted) (f f' : Token → Reading α) :
    c.Alongside (c.Within j) (require kind wanted >>= f) (require kind wanted >>= f') g mid := by
  have hfails : c.Alongside (c.Within j) (require kind wanted) (require kind wanted) id
      fun _ _ _ => False := by
    refine acceptNone (fun kind' hmem => ?_) (fail _)
    rw [List.mem_singleton.mp hmem]
    exact ⟨hkind, hne⟩
  exact hfails.bind fun _ _ _ hfalse => hfalse.elim

theorem closes_end (wanted : Wanted) :
    c.Closes id (require .semicolon wanted) (require .semicolon wanted) := by
  intro j s s' hwithin
  obtain ⟨t, rest, rest', hahead, hahead', hnext⟩ := hwithin.next
  unfold require
  rw [acceptThen_eq hahead, acceptThen_eq hahead']
  rcases hnext with ⟨hplain, -⟩ | ⟨hsemicolon, hpast⟩
  · have hkind : t.kind ∉ [.semicolon] := fun hmem =>
      hplain (List.mem_singleton.mp hmem ▸ by decide)
    rw [if_neg hkind, if_neg hkind]
    exact Alongside.fail _ s s' hwithin
  · have hkind : t.kind ∈ [.semicolon] := by simpa using hsemicolon
    rw [if_pos hkind, if_pos hkind]
    exact .ok hpast

end Readings

theorem echoes_someExpression :
    c.Echoes k (Option.map c.later) (some <$> expression) (some <$> expression) :=
  echoes_expression.bind fun e => .pure (some e)

theorem echoes_expressionUnless (kind : Kind) :
    c.Echoes k (Option.map c.later) (expressionUnless kind) (expressionUnless kind) := by
  refine (Echoes.next? kind).bind fun b => ?_
  cases b with
  | true => exact .pure none
  | false => exact echoes_someExpression

theorem echoes_initialValue :
    c.Echoes k (Option.map c.later) initialValue initialValue := by
  refine (Echoes.skip? (by decide)).bind fun b => ?_
  cases b with
  | true => exact echoes_someExpression
  | false => exact .pure none

theorem closes_expressionStatement :
    c.Closes c.laterStmt expressionStatement expressionStatement := fun j =>
  (echoes_expression j (Nat.le_refl j)).bind fun value => (closes_end _ j).bind fun _ =>
    Alongside.pure (a := Stmt.expression value) fun _ _ hs => hs

theorem closes_printStatement : c.Closes c.laterStmt printStatement printStatement := fun j =>
  (echoes_expression j (Nat.le_refl j)).bind fun value => (closes_end _ j).bind fun _ =>
    Alongside.pure (a := Stmt.print value) fun _ _ hs => hs

theorem closes_returnStatement (keyword : Token) :
    c.Closes c.laterStmt (returnStatement keyword) (returnStatement keyword) := fun j =>
  (echoes_expressionUnless .semicolon j (Nat.le_refl j)).bind fun value =>
    (closes_end _ j).bind fun _ => Alongside.pure (a := Stmt.ret keyword value) fun _ _ hs => hs

theorem closes_varDeclaration : c.Closes c.laterStmt varDeclaration varDeclaration := by
  intro j
  rw [varDeclaration_eq]
  exact (Echoes.require (by decide) _ j (Nat.le_refl j)).bind fun name =>
    (echoes_initialValue j (Nat.le_refl j)).bind fun initializer => (closes_end _ j).bind fun _ =>
    Alongside.pure (a := Stmt.var name initializer) fun _ _ hs => hs

/-- Without boundaries there is only one kind of statement. -/
theorem closes_statementWith {d d' : Reading (Option Stmt)} {st st' : Reading Stmt} :
    c.Closes c.laterStmt (statementWith d st) (statementWith d' st') :=
  fun j => .acceptNone (by decide) (closes_expressionStatement j)

theorem statementAlong_eq (ts : List Token) : ∃ d st, statementAlong ts = statementWith d st := by
  cases ts with
  | nil => exact ⟨_, _, by rw [statementAlong]⟩
  | cons t ts => exact ⟨_, _, by rw [statementAlong]⟩

theorem closes_statementAlong (ts ts' : List Token) :
    c.Closes c.laterStmt (statementAlong ts) (statementAlong ts') := by
  obtain ⟨d, st, heq⟩ := statementAlong_eq ts
  obtain ⟨d', st', heq'⟩ := statementAlong_eq ts'
  rw [heq, heq']
  exact closes_statementWith

/-- An `else` does not come after the semicolon. -/
theorem alongside_noElse : c.Alongside c.Past (skip? .elseWord) (skip? .elseWord) id
    fun b s s' => b = false ∧ c.Past s s' := by
  intro s s' hpast
  have hskip : skip? .elseWord s = .ok false s :=
    Takes.skip?_false (hpast.ahead ▸ c.apart) s.stop s.faults
  have hskip' : skip? .elseWord s' = .ok false s' :=
    Takes.skip?_false (hpast.ahead' ▸ c.apart') s'.stop s'.faults
  rw [hskip, hskip']
  exact .ok ⟨rfl, hpast⟩

theorem closes_ifStatementWith {st st' : Reading Stmt} (hst : c.Closes c.laterStmt st st') :
    c.Closes c.laterStmt (ifStatementWith st) (ifStatementWith st') := by
  intro j
  refine (Echoes.require (by decide) _ j (Nat.le_refl j)).bind fun _ =>
    (echoes_expression j (Nat.le_refl j)).bind fun condition =>
    (Echoes.require (by decide) _ j (Nat.le_refl j)).bind fun _ =>
    (hst j).bind fun thenBranch => alongside_noElse.bind fun b => ?_
  cases b with
  | true => exact fun _ _ hs => absurd hs.1 (by decide)
  | false => exact Alongside.pure (a := Stmt.ifThen condition thenBranch) fun _ _ hs => hs.2

theorem closes_whileStatementWith {st st' : Reading Stmt} (hst : c.Closes c.laterStmt st st') :
    c.Closes c.laterStmt (whileStatementWith st) (whileStatementWith st') := fun j =>
  (Echoes.require (by decide) _ j (Nat.le_refl j)).bind fun _ =>
    (echoes_expression j (Nat.le_refl j)).bind fun condition =>
    (Echoes.require (by decide) _ j (Nat.le_refl j)).bind fun _ =>
    (hst j).bind fun body => Alongside.pure (a := Stmt.loop condition body) fun _ _ hs => hs

/-- A class fails at the latest where its body should begin. -/
theorem closes_classDeclarationWith {d d' : Reading (Option Stmt)} :
    c.Closes c.laterStmt (classDeclarationWith d) (classDeclarationWith d') := fun j =>
  (Echoes.require (by decide) _ j (Nat.le_refl j)).bind fun _ =>
    .unmet (by decide) (by decide) _ _ _

/-- A function fails at the latest where its body should begin. -/
theorem closes_routineWith {d d' : Reading (Option Stmt)} (role : RoutineRole)
    (g : Routine → Routine) : c.Closes g (routineWith d role) (routineWith d' role) := by
  intro j
  have hparameters : c.Echoes j (List.map id) (unlessNext .rightParen (commaSeparated .parameters
      (require .identifier .parameterName))) (unlessNext .rightParen (commaSeparated .parameters
      (require .identifier .parameterName))) :=
    .unlessNext (echoes_commaSeparated (.require (by decide) _))
  rw [routineWith_eq, routineWith_eq]
  exact (Echoes.require (by decide) _ j (Nat.le_refl j)).bind fun _ =>
    (Echoes.require (by decide) _ j (Nat.le_refl j)).bind fun _ =>
    (hparameters j (Nat.le_refl j)).bind fun _ =>
    (Echoes.require (by decide) _ j (Nat.le_refl j)).bind fun _ =>
    .unmet (by decide) (by decide) _ _ _

end Setting

/-! ## 2. One declaration -/

/-- What may stand before the semicolon of a sentence with faults: no semicolon and no braces, no
`for` at the beginning, and no beginning of another statement. -/
structure Fragment (m : List Token) : Prop where
  closed : ∀ t ∈ m, t.kind ∉ [.semicolon, .leftBrace, .rightBrace]
  first : ∀ t ∈ m.head?, t.kind ≠ .forWord
  single : ∀ t ∈ m.tail, t.kind ∉ statementStarts

/-- After its first token a fragment has no boundaries. -/
theorem Fragment.cases {m : List Token} (h : Fragment m) :
    (∀ t ∈ m, t.kind ∉ boundaryKinds) ∨ ∃ t q, m = t :: q ∧ t.kind ∈ statementStarts ∧
      t.kind ≠ .forWord ∧ ∀ t ∈ q, t.kind ∉ boundaryKinds := by
  have hplain : ∀ t ∈ m, t.kind ∉ statementStarts → t.kind ∉ boundaryKinds :=
    fun t ht hstart hmem => (List.mem_append.mp hmem).elim (h.closed t ht) hstart
  cases m with
  | nil => exact .inl (by simp)
  | cons t q =>
    have hq : ∀ t ∈ q, t.kind ∉ boundaryKinds :=
      fun t ht => hplain t (List.mem_cons_of_mem _ ht) (h.single t ht)
    by_cases hstart : t.kind ∈ statementStarts
    · exact .inr ⟨t, q, rfl, hstart, h.first t rfl, hq⟩
    · exact .inl (List.forall_mem_cons.mpr ⟨hplain t (List.mem_cons_self ..) hstart, hq⟩)

/-- Reading resumes right after the semicolon. -/
theorem resume_eq {q after : List Token} {semicolon : Token}
    (hplain : ∀ t ∈ q, t.kind ∉ boundaryKinds) (hkind : semicolon.kind = .semicolon) :
    resume (q ++ semicolon :: after) = after := by
  induction q with
  | nil => simp [resume, hkind]
  | cons t q ih =>
    obtain ⟨ht, hq⟩ := List.forall_mem_cons.mp hplain
    have hne : t.kind ≠ .semicolon := fun heq => ht (heq ▸ by decide)
    have hnext : (q ++ semicolon :: after).head?.any (startsStatement ·.kind) = false := by
      cases q with
      | nil => simp [hkind, startsStatement]
      | cons t' q =>
        have ht' := (List.forall_mem_cons.mp hq).1
        exact decide_eq_false fun hmem => ht' (List.mem_append.mpr (.inr hmem))
    rw [List.cons_append, resume, hnext]
    simpa [hne] using ih hq

namespace Setting

variable {c : Setting}

section Facing

variable {α : Type} {g : α → α} {mid : α → State → State → Prop}
variable {f f' : Option Token → Reading α} {kinds : List Kind} {t : Token} {q : List Token}

theorem Alongside.facingSome (hkind : t.kind ∈ kinds)
    (hsome : c.Alongside (c.Facing q) (f (some t)) (f' (some t)) g mid) :
    c.Alongside (c.Facing (t :: q)) (accept? kinds >>= f) (accept? kinds >>= f') g mid := by
  intro s s' hat
  rw [acceptThen_eq hat.ahead, acceptThen_eq hat.ahead', if_pos hkind, if_pos hkind]
  exact hsome _ _ (hat.moved _ _)

theorem Alongside.facingNone (hkind : t.kind ∉ kinds)
    (hnone : c.Alongside (c.Facing (t :: q)) (f none) (f' none) g mid) :
    c.Alongside (c.Facing (t :: q)) (accept? kinds >>= f) (accept? kinds >>= f') g mid := by
  intro s s' hat
  rw [acceptThen_eq hat.ahead, acceptThen_eq hat.ahead', if_neg hkind, if_neg hkind]
  exact hnone s s' hat

/-- What goes alongside up to any number of tokens does so for given ones. -/
theorem Closes.facing {x x' : Reading α} (hx : c.Closes g x x')
    (hplain : ∀ t ∈ q, t.kind ∉ boundaryKinds) :
    c.Alongside (c.Facing q) x x' g fun _ => c.Past :=
  fun s s' hat => hx (q.length + 1) s s' ⟨q, Nat.lt_succ_self _, hplain, hat⟩

/-- With recovery there is always a result, and the semicolon is always taken. -/
theorem Alongside.recovering {pre : State → State → Prop} {x x' : Reading α}
    (hx : c.Alongside pre x x' g fun _ => c.Past) {s s' : State} (hpre : pre s s') :
    ∃ o s₁ s₁', Grammar.recovering x s = .ok o s₁ ∧
      Grammar.recovering x' s' = .ok (o.map g) s₁' ∧ c.Past s₁ s₁' := by
  have halike := hx s s' hpre
  unfold Grammar.recovering
  generalize x s = r, x' s' = r' at halike ⊢
  cases halike with
  | ok hpast => exact ⟨some _, _, _, rfl, rfl, hpast⟩
  | @error fault bound s₁ s₁' hwithin =>
    obtain ⟨q, -, hplain, hat⟩ := hwithin
    refine ⟨none, _, _, rfl, rfl, ?_⟩
    rw [hat.ahead, hat.ahead', resume_eq hplain c.kind, resume_eq hplain c.kind]
    exact (hat.snoc fault).moved _ _

end Facing

/-- A fragment and its semicolon are one declaration, or the faults of one, in both sources. -/
theorem alongside_declarationWith {d d' : Reading (Option Stmt)} {st st' : Reading Stmt}
    (hst : c.Closes c.laterStmt st st') {m : List Token} (hm : Fragment m) {s s' : State}
    (hat : c.Facing m s s') :
    ∃ o s₁ s₁', declarationWith d (statementWith d st) s = .ok o s₁ ∧
      declarationWith d' (statementWith d' st') s' = .ok (o.map c.laterStmt) s₁' ∧
      c.Past s₁ s₁' := by
  refine Alongside.recovering ?_ hat
  rcases hm.cases with hplain | ⟨t, q, rfl, hstart, hfor, hplain⟩
  · intro s s' hat
    exact Alongside.acceptNone (by decide) (closes_statementWith (m.length + 1)) s s'
      ⟨m, Nat.lt_succ_self _, hplain, hat⟩
  -- a declaration is told by its first word, a statement only when no declaration is
  have hkinds : ∀ kind ∈ statementStarts, kind ≠ .forWord →
      kind ∈ [.classWord, .funWord, .varWord] ∨ kind ∉ [.classWord, .funWord, .varWord] ∧
        kind ∈ [.ifWord, .printWord, .returnWord, .whileWord] := by decide
  rcases hkinds _ hstart hfor with hkind | ⟨hother, hkind⟩
  · refine .facingSome hkind ?_
    simp only [List.mem_cons, List.not_mem_nil, or_false] at hkind
    rcases hkind with hkind | hkind | hkind
    all_goals simp only [hkind]
    · exact closes_classDeclarationWith.facing hplain
    · have hfunction : c.Closes c.laterStmt (.function <$> routineWith d .function)
          (.function <$> routineWith d' .function) := fun j =>
        (closes_routineWith .function (·.relabel (.renumber c.ids)) j).bind fun routine =>
          Alongside.pure (a := Stmt.function routine) fun _ _ hs => hs
      exact hfunction.facing hplain
    · exact closes_varDeclaration.facing hplain
  · have hstatement : t.kind ∈
        [.forWord, .ifWord, .printWord, .returnWord, .whileWord, .leftBrace] :=
      List.mem_cons_of_mem _ (List.mem_append_left [Kind.leftBrace] hkind)
    refine .facingNone hother (.facingSome hstatement ?_)
    simp only [List.mem_cons, List.not_mem_nil, or_false] at hkind
    rcases hkind with hkind | hkind | hkind | hkind
    all_goals simp only [hkind]
    · exact (closes_ifStatementWith hst).facing hplain
    · exact closes_printStatement.facing hplain
    · exact (closes_returnStatement t).facing hplain
    · exact (closes_whileStatementWith hst).facing hplain

theorem alongside_declaration {m : List Token} (hm : Fragment m) {s s' : State}
    (hat : c.Facing m s s') :
    ∃ o s₁ s₁', declaration s = .ok o s₁ ∧ declaration s' = .ok (o.map c.laterStmt) s₁' ∧
      c.Past s₁ s₁' := by
  have hcons : ∀ after, ∃ t ts, m ++ c.semicolon :: after = t :: ts := fun after => by
    cases m with
    | nil => exact ⟨_, _, rfl⟩
    | cons t q => exact ⟨_, _, rfl⟩
  obtain ⟨t, ts, hts⟩ := hcons c.after
  obtain ⟨t', ts', hts'⟩ := hcons c.after'
  show ∃ o s₁ s₁', declarationAlong s.ahead s = .ok o s₁ ∧
    declarationAlong s'.ahead s' = .ok (o.map c.laterStmt) s₁' ∧ c.Past s₁ s₁'
  rw [hat.ahead, hat.ahead', hts, hts', declarationAlong, declarationAlong]
  exact alongside_declarationWith (closes_statementAlong ts ts') hm hat

end Setting

/-! ## 3. Declarations in a row -/

/-- Reading some declarations, each of which takes a token, goes from one state to another and
gives some statements. -/
inductive Advance : State → List Stmt → State → Prop where
  | refl {s} : Advance s [] s
  | step {s o s₁ statements s'} : declaration s = .ok o s₁ → s₁.ahead.length < s.ahead.length →
      Advance s₁ statements s' → Advance s (o.toList ++ statements) s'

theorem Advance.trans {s s₁ s' : State} {statements statements' : List Stmt}
    (h : Advance s statements s₁) (h' : Advance s₁ statements' s') :
    Advance s (statements ++ statements') s' := by
  induction h with
  | refl => exact h'
  | step hread hshorter _ ih =>
    rw [List.append_assoc]
    exact .step hread hshorter (ih h')

/-- Declarations up to the end of the tokens are a script. -/
theorem script_of_advance {s s' : State} {statements : List Stmt} (h : Advance s statements s')
    (hend : s'.ahead = []) : script s = .ok statements s' := by
  rw [script_eq]
  suffices hrounds : ∀ (ts : List Token) (items : List Stmt), s.ahead.length ≤ ts.length →
      iterateAlong (repeatRound atEnd (Option.toList <$> declaration)) ts items s =
        .ok (items ++ statements) s'
    from hrounds s.ahead [] (Nat.le_refl _)
  induction h with
  | @refl s =>
    intro ts items _
    have hround : repeatRound atEnd (Option.toList <$> declaration) items s =
        .ok (.inr items) s := by
      have hatEnd : atEnd s = .ok true s := by
        show EStateM.Result.ok s.ahead.isEmpty s = _
        rw [hend]
        rfl
      exact bind_of_ok hatEnd
    rw [iterateAlong_eq, bind_of_ok hround, List.append_nil]
    rfl
  | @step s o s₁ statements s' hread hshorter _ ih =>
    intro ts items hlength
    have hround : repeatRound atEnd (Option.toList <$> declaration) items s =
        .ok (.inl (items ++ o.toList)) s₁ := by
      have hatEnd : atEnd s = .ok false s := by
        show EStateM.Result.ok s.ahead.isEmpty s = _
        cases hahead : s.ahead with
        | nil => simp [hahead] at hshorter
        | cons t ts => rfl
      refine (bind_of_ok hatEnd).trans ?_
      exact bind_of_ok (bind_of_ok hread)
    cases ts with
    | nil =>
      rw [List.length_nil] at hlength
      omega
    | cons t ts =>
      rw [List.length_cons] at hlength
      rw [iterateAlong_eq, bind_of_ok hround, ← List.append_assoc]
      exact ih hend ts (items ++ o.toList) (by omega)

/-! ## 4. Units -/

/-- Tokens that are read without fault by themselves, or one sentence up to its semicolon. None
of them ends the input. -/
inductive SourceUnit : List Token → Prop where
  | faultless {u n} : (∀ t ∈ u, t.kind ≠ .endOfInput) → (parse u n).faults = [] → SourceUnit u
  | sentence {m} {semicolon : Token} : (∀ t ∈ m, t.kind ≠ .endOfInput) → Fragment m →
      semicolon.kind = .semicolon → SourceUnit (m ++ [semicolon])

theorem SourceUnit.endless {u : List Token} : SourceUnit u → ∀ t ∈ u, t.kind ≠ .endOfInput
  | .faultless hendless _ => hendless
  | .sentence hendless _ hkind => by
      refine List.forall_mem_append.mpr ⟨hendless, List.forall_mem_singleton.mpr ?_⟩
      rw [hkind]
      decide

/-- Wherever the tokens `u` stand, if no `else` follows, they give some statements, told without
identities, and some faults. -/
def Gives (u : List Token) (statements : List Stmt) (faults : List Fault) : Prop :=
  ∀ s rest, s.ahead = u ++ rest → Stops [.elseWord] rest →
    ∃ made s', Advance s made s' ∧ Stmt.relabelAll .unnumber made = statements ∧
      s'.ahead = rest ∧ s'.faults = s.faults ++ faults

/-- All tokens count if none ends the input. -/
theorem words_eq {u : List Token} (hendless : ∀ t ∈ u, t.kind ≠ .endOfInput) : words u = u := by
  have happend : words (u ++ []) = u ++ [] :=
    List.takeWhile_append_of_pos fun t ht => by simpa using hendless t ht
  rwa [List.append_nil] at happend

theorem Stops.append {kinds : List Kind} {ts rest : List Token} (h : Stops kinds ts)
    (h' : Stops kinds rest) : Stops kinds (ts ++ rest) := by
  cases ts with
  | nil => exact h'
  | cons t ts => exact h

theorem Gives.append {u v : List Token} {statements statements' : List Stmt}
    {faults faults' : List Fault} (h : Gives u statements faults)
    (h' : Gives v statements' faults') (hv : Stops [.elseWord] v) :
    Gives (u ++ v) (statements ++ statements') (faults ++ faults') := by
  intro s rest hahead hrest
  rw [List.append_assoc] at hahead
  obtain ⟨made, s₁, hadvance, hmade, hahead₁, hfaults⟩ := h s (v ++ rest) hahead (hv.append hrest)
  obtain ⟨made', s₂, hadvance', hmade', hahead₂, hfaults'⟩ := h' s₁ rest hahead₁ hrest
  refine ⟨made ++ made', s₂, hadvance.trans hadvance', ?_, hahead₂, ?_⟩
  · rw [Stmt.relabelAll_append, hmade, hmade']
  · rw [hfaults', hfaults, List.append_assoc]

/-- Tokens that are read by themselves give what they give. -/
theorem Gives.parse {u : List Token} {statements : List Stmt} {faults : List Fault}
    (h : Gives u statements faults) (hendless : ∀ t ∈ u, t.kind ≠ .endOfInput) (n : Nat) :
    Stmt.relabelAll .unnumber (parse u n).statements = statements ∧
      (parse u n).faults = faults := by
  have hahead : (State.start u n).ahead = u ++ [] := by
    rw [List.append_nil]
    exact words_eq hendless
  obtain ⟨made, s', hadvance, hmade, hend, hfaults⟩ := h _ [] hahead (stops_nil _)
  have hread : Grammar.parse u n = ⟨made, s'.faults, s'.nextId⟩ := by
    unfold Grammar.parse
    rw [script_of_advance hadvance hend]
  rw [hread]
  exact ⟨hmade, hfaults⟩

/-- A script is read wherever it stands, with later identities. -/
theorem advance_of_script {ts rest : List Token} {n n' ids : Nat} {statements : List Stmt}
    (h : Script ts n statements n') {s : State} (hahead : s.ahead = ts ++ rest)
    (hrest : Stops [.elseWord] rest) (hid : s.nextId = ids + n) :
    ∃ s', Advance s (Stmt.relabelAll (.renumber ids) statements) s' ∧ s'.ahead = rest ∧
      s'.faults = s.faults := by
  induction h generalizing s with
  | nil => exact ⟨s, .refl, hahead, rfl⟩
  | @cons ts n stmt mid n₁ statements n' hfirst hscript ih =>
    have hphrase := hfirst.shifted 0 ids rest
    rw [Phrase.lowered, Phrase.lowered, map_moved_zero, map_moved_zero,
      Relabelling.shift_zero] at hphrase
    have hread := takes_declaration hphrase ((script_several hscript).2.append hrest) s.stop s.faults
    rw [← hahead, ← hid] at hread
    obtain ⟨s', hadvance, hahead', hfaults⟩ :=
      @ih ⟨mid ++ rest, s.stop, s.faults, ids + n₁⟩ rfl rfl
    have hshorter : (mid ++ rest).length < s.ahead.length := by
      rw [hahead, List.length_append, List.length_append]
      exact Nat.add_lt_add_right hfirst.shorter _
    exact ⟨s', .step hread hshorter hadvance, hahead', hfaults⟩

theorem relabelAll_unnumber_renumber (ids : Nat) (statements : List Stmt) :
    Stmt.relabelAll .unnumber (Stmt.relabelAll (.renumber ids) statements) =
      Stmt.relabelAll .unnumber statements := by
  rw [Stmt.relabelAll_relabelAll, Relabelling.unnumber_comp fun _ => rfl]

theorem gives_faultless {u : List Token} {n : Nat} (hendless : ∀ t ∈ u, t.kind ≠ .endOfInput)
    (h : (parse u n).faults = []) : ∃ statements faults, Gives u statements faults := by
  obtain ⟨statements, n', hscript⟩ := phrased_of_derives (script_of_parse h).derives _ rfl 0
  rw [words_eq hendless] at hscript
  refine ⟨Stmt.relabelAll .unnumber statements, [], fun s rest hahead hrest => ?_⟩
  obtain ⟨s', hadvance, hahead', hfaults⟩ := advance_of_script hscript hahead hrest rfl
  exact ⟨_, s', hadvance, relabelAll_unnumber_renumber _ _, hahead', by
    rw [hfaults, List.append_nil]⟩

/-- A sentence gives everywhere what it gives in a source of its own. -/
theorem gives_sentence {m : List Token} {semicolon : Token} (hm : Fragment m)
    (hkind : semicolon.kind = .semicolon) :
    ∃ statements faults, Gives (m ++ [semicolon]) statements faults := by
  let alone : State := ⟨m ++ [semicolon], .endOfInput 1, [], 0⟩
  have hboth : ∀ s rest, s.ahead = m ++ [semicolon] ++ rest → Stops [.elseWord] rest →
      ∃ o s₁ s', declaration alone = .ok o s₁ ∧
        declaration s = .ok (o.map (·.relabel (.renumber s.nextId))) s' ∧
        s'.ahead = rest ∧ s'.faults = s.faults ++ s₁.faults := by
    intro s rest hahead hrest
    let c : Setting := ⟨semicolon, [], rest, [], s.faults, s.nextId, hkind, stops_nil _, hrest⟩
    have hfacing : c.Facing m alone s :=
      ⟨rfl, by rw [hahead, List.append_assoc]; rfl, ⟨[], rfl, (List.append_nil _).symm⟩, rfl⟩
    obtain ⟨o, s₁, s', hread, hread', hpast⟩ := Setting.alongside_declaration hm hfacing
    obtain ⟨new, hnew, hnew'⟩ := hpast.faults
    exact ⟨o, s₁, s', hread, hread', hpast.ahead', by rw [hnew', hnew]; rfl⟩
  obtain ⟨o, s₁, -, hread, -⟩ := hboth alone [] (List.append_nil _).symm (stops_nil _)
  refine ⟨Stmt.relabelAll .unnumber o.toList, s₁.faults, fun s rest hahead hrest => ?_⟩
  obtain ⟨o', s₁', s', hread', hread'', hahead', hfaults⟩ := hboth s rest hahead hrest
  obtain ⟨rfl, rfl⟩ : o = o' ∧ s₁ = s₁' := by
    rw [hread] at hread'
    injection hread' with ho hs
    exact ⟨ho, hs⟩
  have hshorter : s'.ahead.length < s.ahead.length := by
    rw [hahead, hahead', List.length_append, List.length_append, List.length_singleton]
    omega
  refine ⟨_, s', .step hread'' hshorter .refl, ?_, hahead', hfaults⟩
  rw [List.append_nil]
  cases o with
  | none => rfl
  | some stmt => exact relabelAll_unnumber_renumber s.nextId [stmt]

/-- A unit gives everywhere what is read from it alone. -/
theorem SourceUnit.gives {u : List Token} (h : SourceUnit u) (n : Nat) :
    Gives u (Stmt.relabelAll .unnumber (parse u n).statements) (parse u n).faults := by
  have hgives : ∃ statements faults, Gives u statements faults := by
    cases h with
    | faultless hendless hfaults => exact gives_faultless hendless hfaults
    | sentence _ hm hkind => exact gives_sentence hm hkind
  obtain ⟨statements, faults, hgives⟩ := hgives
  obtain ⟨rfl, rfl⟩ := hgives.parse h.endless n
  exact hgives

/-! ## 5. Units in a row -/

theorem gives_units {units : List (List Token)}
    (hunits : ∀ u ∈ units, SourceUnit u ∧ Stops [.elseWord] u) (n : Nat) :
    Gives units.flatten (units.flatMap fun u => Stmt.relabelAll .unnumber (parse u n).statements)
      (units.flatMap fun u => (parse u n).faults) := by
  induction units with
  | nil => exact fun s rest hahead _ => ⟨[], s, .refl, rfl, hahead, (List.append_nil _).symm⟩
  | cons u units ih =>
    obtain ⟨⟨hunit, -⟩, hunits'⟩ := List.forall_mem_cons.mp hunits
    refine (hunit.gives n).append (ih hunits') ?_
    clear ih hunits
    induction units with
    | nil => exact stops_nil _
    | cons v units ih =>
      obtain ⟨⟨-, hv⟩, hunits''⟩ := List.forall_mem_cons.mp hunits'
      exact hv.append (ih hunits'')

/-- Of units of which none begins with `else`, the faults are those of each unit alone, and so are
the statements apart from identities. -/
theorem parse_isolates_units (units : List (List Token))
    (hunits : ∀ u ∈ units, SourceUnit u ∧ Stops [.elseWord] u) (n k : Nat) :
    Stmt.relabelAll .unnumber (parse units.flatten n).statements =
        units.flatMap (fun u => Stmt.relabelAll .unnumber (parse u k).statements) ∧
      (parse units.flatten n).faults = units.flatMap fun u => (parse u k).faults := by
  refine (gives_units hunits k).parse (fun t ht => ?_) n
  obtain ⟨u, hu, htu⟩ := List.mem_flatten.mp ht
  exact (hunits u hu).1.endless t htu

/-- The words of `a b;`. -/
def strayName : List Token :=
  [⟨.identifier, "a", none, 1⟩, ⟨.identifier, "b", none, 1⟩, ⟨.semicolon, ";", none, 1⟩]

/-- The words of `if (a) b;`. -/
def openIf : List Token :=
  [⟨.ifWord, "if", none, 2⟩, ⟨.leftParen, "(", none, 2⟩, ⟨.identifier, "a", none, 2⟩,
   ⟨.rightParen, ")", none, 2⟩, ⟨.identifier, "b", none, 2⟩, ⟨.semicolon, ";", none, 2⟩]

/-- A stray name before and after a statement is two faults, and the statement is read. -/
theorem parse_isolates_units_strayName :
    (parse strayName 7).faults ≠ [] ∧
      (parse (strayName ++ openIf ++ strayName) 0).faults =
        (parse strayName 7).faults ++ (parse strayName 7).faults ∧
      Stmt.relabelAll .unnumber (parse (strayName ++ openIf ++ strayName) 0).statements =
        Stmt.relabelAll .unnumber (parse openIf 7).statements := by
  have hstray : SourceUnit strayName :=
    .sentence (m := strayName.take 2) (by decide) ⟨by decide, by decide, by decide⟩ rfl
  have hopen : SourceUnit openIf := .faultless (n := 0) (by decide) (by decide +kernel)
  have hunits : ∀ u ∈ [strayName, openIf, strayName], SourceUnit u ∧ Stops [.elseWord] u := by
    simp only [List.forall_mem_cons, List.not_mem_nil, false_implies, implies_true, and_true]
    exact ⟨⟨hstray, .of_kind rfl (by decide)⟩, ⟨hopen, .of_kind rfl (by decide)⟩,
      hstray, .of_kind rfl (by decide)⟩
  obtain ⟨hstatements, hfaults⟩ := parse_isolates_units _ hunits 0 7
  have hnone : (parse openIf 7).faults = [] := by decide +kernel
  have hleft : (parse strayName 7).statements = [] := List.length_eq_zero_iff.mp (by decide +kernel)
  simp only [List.flatten_cons, List.flatten_nil, List.append_nil, List.flatMap_cons,
    List.flatMap_nil, ← List.append_assoc] at hstatements hfaults
  rw [hnone, List.append_nil] at hfaults
  rw [hleft, Stmt.relabelAll, List.nil_append, List.append_nil] at hstatements
  exact ⟨by decide +kernel, hfaults, hstatements⟩

end ScriptLang.Grammar
