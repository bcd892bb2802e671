/-
ScriptLang.Proofs.Grammar.Outcomes — what is true of every reading, faults
included.

`Sound` of `Proofs.Grammar.Reader` says nothing about a reading that has
recorded a fault. `Always good x P` is about all outcomes, for tokens that are
good. Whether the reading gives a result or fails, it goes forward in the
tokens, hands out identities in order, and the faults it records or throws
point at good tokens (`Follows`, `PointsAt`). If it gives a result, `P` holds of
the next identity before it, the result, and the next identity after it.

There is one lemma for each rule of the grammar, with `Made` of
`Proofs.Tree.Formed` for `P`. They make up `parse_made`: of whatever tokens,
the statements that are read are well formed and their expressions have
different identities, and every fault points at one of the tokens.
-/
import ScriptLang.Proofs.Grammar.Soundness
import ScriptLang.Proofs.Tree.Formed

namespace ScriptLang.Grammar

open Binding (declaredName?)
open Phrase (Good)

/-! ## 1. All outcomes of a reading -/

/-- A fault of the grammar that points at a good token. -/
def PointsAt (good : Token → Prop) (fault : Fault) : Prop :=
  ∃ t cause, good t ∧ fault = .grammar t.site cause

/-- Reading went on from one state to another. -/
structure State.Follows (good : Token → Prop) (s s' : State) : Prop where
  stop : s'.stop = s.stop
  ahead : s'.ahead <:+ s.ahead
  nextId : s.nextId ≤ s'.nextId
  faults : ∃ new, s'.faults = s.faults ++ new ∧ ∀ fault ∈ new, PointsAt good fault

namespace State.Follows

variable {good : Token → Prop} {s s₁ s₂ s₃ : State}

theorem refl (s : State) : s.Follows good s :=
  ⟨rfl, List.suffix_refl _, Nat.le_refl _, [], by simp, by simp⟩

theorem trans (h : s₁.Follows good s₂) (h' : s₂.Follows good s₃) : s₁.Follows good s₃ := by
  obtain ⟨new, hnew, hpoints⟩ := h.faults
  obtain ⟨new', hnew', hpoints'⟩ := h'.faults
  refine ⟨h'.stop.trans h.stop, h'.ahead.trans h.ahead, Nat.le_trans h.nextId h'.nextId,
    new ++ new', by rw [hnew', hnew, List.append_assoc], ?_⟩
  intro fault hfault
  exact (List.mem_append.mp hfault).elim (hpoints fault) (hpoints' fault)

/-- Fewer tokens are ahead, and nothing else has changed. -/
theorem drop {rest : List Token} (h : rest <:+ s.ahead) :
    s.Follows good { s with ahead := rest } :=
  ⟨rfl, h, Nat.le_refl _, [], by simp, by simp⟩

/-- A fault is recorded, and perhaps tokens are skipped. -/
theorem snoc {fault : Fault} {rest : List Token} (hahead : rest <:+ s.ahead)
    (h : PointsAt good fault) :
    s.Follows good { s with faults := s.faults ++ [fault], ahead := rest } := by
  refine ⟨rfl, hahead, Nat.le_refl _, [fault], rfl, ?_⟩
  intro fault' hfault'
  rw [List.mem_singleton.mp hfault']
  exact h

/-- The tokens of a later state are good ones. -/
theorem good_ahead (h : s.Follows good s₁) (hgood : Good good s.ahead) : Good good s₁.ahead :=
  fun t ht => hgood t (h.ahead.subset ht)

end State.Follows

/-- What can be said of a result: with the next identity before and after it. -/
abbrev Outcome (α : Type) := Nat → α → Nat → Prop

/-- However a reading of good tokens ends, it goes forward, its faults point at good tokens, and
its result is as `P` says. -/
def Always {α : Type} (good : Token → Prop) (x : Reading α) (P : Outcome α) : Prop :=
  ∀ s, Good good s.ahead → good s.stop → match x s with
    | .ok a s' => s.Follows good s' ∧ P s.nextId a s'.nextId
    | .error fault s' => PointsAt good fault ∧ s.Follows good s'

/-- Skipping to the next sentence goes forward. -/
theorem resume_suffix (ts : List Token) : resume ts <:+ ts := by
  induction ts with
  | nil => exact List.suffix_refl _
  | cons t ts ih =>
    rw [resume]
    split
    · exact List.suffix_cons t ts
    · exact ih.trans (List.suffix_cons t ts)

namespace Always

variable {α β : Type} {good : Token → Prop} {P P' : Outcome α} {x : Reading α}
variable {f : α → Reading β}

theorem mono (h : Always good x P) (himp : ∀ n a n', P n a n' → P' n a n') :
    Always good x P' := by
  intro s hahead hstop
  have hs := h s hahead hstop
  cases hx : x s with
  | ok a s' =>
    rw [hx] at hs
    exact ⟨hs.1, himp _ _ _ hs.2⟩
  | error fault s' => rw [hx] at hs; exact hs

/-- What comes next may rely on what the result was. -/
theorem andThen {Q : α → Outcome β} (h : Always good x P)
    (hf : ∀ n a n₁, P n a n₁ → Always good (f a) (Q a)) :
    Always good (x >>= f) fun n b n' => ∃ a n₁, P n a n₁ ∧ Q a n₁ b n' := by
  intro s hahead hstop
  have hs := h s hahead hstop
  show match EStateM.bind x f s with
    | .ok b s' => _
    | .error fault s' => _
  unfold EStateM.bind
  cases hx : x s with
  | error fault s₁ => rw [hx] at hs; exact hs
  | ok a s₁ =>
    rw [hx] at hs
    have hs₁ := hf _ a _ hs.2 s₁ (hs.1.good_ahead hahead) (hs.1.stop ▸ hstop)
    dsimp only
    cases hfa : f a s₁ with
    | error fault s₂ => rw [hfa] at hs₁; exact ⟨hs₁.1, hs.1.trans hs₁.2⟩
    | ok b s₂ => rw [hfa] at hs₁; exact ⟨hs.1.trans hs₁.1, a, s₁.nextId, hs.2, hs₁.2⟩

protected theorem bind {Q : α → Outcome β} (h : Always good x P)
    (hf : ∀ a, Always good (f a) (Q a)) :
    Always good (x >>= f) fun n b n' => ∃ a n₁, P n a n₁ ∧ Q a n₁ b n' :=
  h.andThen fun _ a _ _ => hf a

theorem pure (a : α) : Always good (Pure.pure a) fun n b n' => b = a ∧ n' = n :=
  fun s _ _ => ⟨.refl s, rfl, rfl⟩

protected theorem map (g : α → β) (h : Always good x P) :
    Always good (g <$> x) fun n b n' => ∃ a, b = g a ∧ P n a n' := by
  refine (h.bind fun a => Always.pure (g a)).mono ?_
  rintro n b n' ⟨a, n₁, hP, rfl, rfl⟩
  exact ⟨a, rfl, hP⟩

theorem peek : Always good Grammar.peek fun n t n' => good t ∧ n' = n := by
  intro s hahead hstop
  refine ⟨.refl s, ?_, rfl⟩
  cases hs : s.ahead with
  | nil => exact hstop
  | cons t ts => exact hahead t (hs ▸ List.mem_cons_self ..)

theorem fail (cause : GrammarCause) : Always good (Grammar.fail cause) P := by
  intro s hahead hstop
  exact ⟨⟨_, cause, (peek s hahead hstop).2.1, rfl⟩, .refl s⟩

theorem record {token : Token} (h : good token) (cause : GrammarCause) :
    Always good (Grammar.record token cause) fun n _ n' => n' = n :=
  fun _ _ _ => ⟨.snoc (List.suffix_refl _) ⟨token, cause, h, rfl⟩, rfl⟩

theorem next? (kind : Kind) : Always good (Grammar.next? kind) fun n _ n' => n' = n :=
  fun s _ _ => ⟨.refl s, rfl⟩

theorem atEnd : Always good Grammar.atEnd fun n _ n' => n' = n :=
  fun s _ _ => ⟨.refl s, rfl⟩

theorem fresh : Always good Grammar.fresh fun n id n' => id = n ∧ n' = n + 1 :=
  fun _ _ _ => ⟨⟨rfl, List.suffix_refl _, Nat.le_succ _, [], by simp, by simp⟩,
    rfl, rfl⟩

theorem accept? (kinds : List Kind) : Always good (Grammar.accept? kinds) fun n o n' =>
    (∀ t ∈ o, Apt good kinds t) ∧ n' = n := by
  intro s hahead _
  rcases accept?_cases kinds s with ⟨haccept, -⟩ | ⟨t, rest, hs, hkind, haccept⟩
  · rw [haccept]
    exact ⟨.refl s, by simp, rfl⟩
  · rw [haccept]
    refine ⟨.drop (hs ▸ List.suffix_cons t rest), fun t' ht' => ?_, rfl⟩
    obtain rfl := Option.some.inj ht'
    exact ⟨hahead _ (hs ▸ List.mem_cons_self ..), hkind⟩

/-- A reading that begins with an optional token goes on with the token or without it. -/
theorem acceptThen {kinds : List Kind} {f : Option Token → Reading α}
    (hsome : ∀ t, Apt good kinds t → Always good (f (some t)) P) (hnone : Always good (f none) P) :
    Always good (Grammar.accept? kinds >>= f) P := by
  refine ((accept? kinds).andThen (Q := fun _ => P) fun _ o _ ho => ?_).mono ?_
  · cases o with
    | none => exact hnone
    | some t => exact hsome t (ho.1 t rfl)
  · rintro n a n' ⟨o, n₁, ⟨-, rfl⟩, h⟩
    exact h

theorem skip? (kind : Kind) : Always good (Grammar.skip? kind) fun n _ n' => n' = n := by
  refine ((accept? [kind]).bind fun o => Always.pure _).mono ?_
  rintro n b n' ⟨o, n₁, ⟨-, rfl⟩, -, rfl⟩
  rfl

theorem require (kind : Kind) (wanted : Wanted) :
    Always good (Grammar.require kind wanted) fun n t n' => Apt good [kind] t ∧ n' = n := by
  refine acceptThen (fun t ht => (Always.pure t).mono ?_) (fail _)
  rintro n t' n' ⟨rfl, rfl⟩
  exact ⟨ht, rfl⟩

theorem ite {c : Prop} [Decidable c] {y : Reading α} (hx : Always good x P)
    (hy : Always good y P) : Always good (if c then x else y) P := by
  split
  · exact hx
  · exact hy

/-- A question that changes nothing, and what depends on the answer. -/
theorem ask {test : Reading Bool} {f : Bool → Reading α}
    (htest : Always good test fun n _ n' => n' = n) (h : ∀ b, Always good (f b) P) :
    Always good (test >>= f) P := by
  refine (htest.bind (Q := fun _ => P) h).mono ?_
  rintro n a n' ⟨b, n₁, rfl, h⟩
  exact h

/-- A repetition: `T a` holds of what is read from the point where the repetition has got to
`a`. -/
theorem iterateAlong {step : α → Reading (α ⊕ β)} {T : α → Outcome β}
    (hstep : ∀ a, Always good (step a) fun n r n' => match r with
      | .inl a' => ∀ b n'', T a' n' b n'' → T a n b n''
      | .inr b => T a n b n') :
    ∀ (along : List Token) (a : α), Always good (Grammar.iterateAlong step along a) (T a)
  | [], a => by
      refine Always.mono (Always.bind (Q := fun r n b n' => r = .inr b ∧ n' = n) (hstep a)
        fun r => ?_) ?_
      · cases r with
        | inl a' => exact fail .tooDeep
        | inr b => exact (Always.pure b).mono fun _ _ _ ⟨hb, hn⟩ => ⟨hb ▸ rfl, hn⟩
      · rintro n b n' ⟨r, n₁, hr, rfl, rfl⟩
        exact hr
  | _ :: along, a => by
      refine Always.mono (Always.bind (Q := fun r n b n' => match r with
          | .inl a' => T a' n b n'
          | .inr b' => b = b' ∧ n' = n) (hstep a) fun r => ?_) ?_
      · cases r with
        | inl a' => exact iterateAlong hstep along a'
        | inr b => exact Always.pure b
      · rintro n b n' ⟨r, n₁, hr, hq⟩
        cases r with
        | inl a' => exact hr b n' hq
        | inr b' =>
          obtain ⟨rfl, rfl⟩ := hq
          exact hr

theorem iterate {step : α → Reading (α ⊕ β)} {T : α → Outcome β}
    (hstep : ∀ a, Always good (step a) fun n r n' => match r with
      | .inl a' => ∀ b n'', T a' n' b n'' → T a n b n''
      | .inr b => T a n b n') (a : α) : Always good (Grammar.iterate a step) (T a) :=
  fun s => iterateAlong hstep s.ahead a s

/-- A repetition of items: what holds of no items and survives one more holds of all. -/
theorem repeatUntil {test : Reading Bool} {item : Reading (List α)} {Q : Outcome (List α)}
    (htest : Always good test fun n _ n' => n' = n) (hitem : Always good item Q)
    {T : Nat → List α → Nat → Prop} (hnil : ∀ n, T n [] n)
    (hsnoc : ∀ lo items n new n', T lo items n → Q n new n' → T lo (items ++ new) n') :
    Always good (Grammar.repeatUntil test item) T := by
  refine Always.mono (Always.iterate (T := fun items n as n' => ∀ lo, T lo items n → T lo as n')
    (fun items => ?_) []) ?_
  · refine ask htest fun b => ?_
    cases b with
    | true =>
      refine (Always.pure _).mono ?_
      rintro n r n' ⟨rfl, rfl⟩ lo h
      exact h
    | false =>
      refine (hitem.bind fun new => Always.pure _).mono ?_
      rintro n r n' ⟨new, n₁, hnew, rfl, rfl⟩ as n'' hrest lo h
      exact hrest lo (hsnoc lo items n new _ h hnew)
  · exact fun n as n' h => h n (hnil n)

/-- A sentence that fails is left out. -/
theorem recovering (h : Always good x P) : Always good (Grammar.recovering x) fun n o n' =>
    n ≤ n' ∧ ∀ a ∈ o, P n a n' := by
  intro s hahead hstop
  have hs := h s hahead hstop
  unfold Grammar.recovering
  cases hx : x s with
  | ok a s' =>
    rw [hx] at hs
    refine ⟨hs.1, hs.1.nextId, fun a' ha' => ?_⟩
    obtain rfl := Option.some.inj ha'
    exact hs.2
  | error fault s' =>
    rw [hx] at hs
    exact ⟨hs.2.trans (.snoc (resume_suffix _) hs.1), hs.2.nextId, by simp⟩

end Always

/-! ## 2. Expressions -/

section Expressions

variable {good : Token → Prop}

/-- An expression is made. -/
abbrev MakesExpr (good : Token → Prop) : Outcome Expr :=
  fun n e n' => Made n n' e.ids (e.Formed good)

/-- Some expressions are made, one after the other. -/
abbrev MakesExprs (good : Token → Prop) : Outcome (List Expr) :=
  fun n es n' => Made n n' (Expr.idsAll es) (∀ e ∈ es, e.Formed good)

/-- A tree is made around one that exists already. -/
abbrev Wraps (good : Token → Prop) (inner : Expr) : Outcome Expr := fun n e n' =>
  ∀ lo, Made lo n inner.ids (inner.Formed good) → Made lo n' e.ids (e.Formed good)

theorem MakesExprs.snoc {n n' n'' : Nat} {es : List Expr} {e : Expr} (hes : MakesExprs good n es n')
    (he : MakesExpr good n' e n'') : MakesExprs good n (es ++ [e]) n'' := by
  have hboth := (hes.append he).imp fun both => List.forall_mem_append.mpr
    ⟨both.1, List.forall_mem_singleton.mpr both.2⟩
  rw [MakesExprs, Expr.idsAll_append, Expr.idsAll, Expr.idsAll, List.append_nil]
  exact hboth

/-- A tree that is one node. -/
theorem always_leaf {g : Nat → Expr} (hids : ∀ n, (g n).ids = [n])
    (hformed : ∀ n, (g n).Formed good) :
    Always good (do pure (g (← fresh))) (MakesExpr good) := by
  refine (Always.fresh.bind fun id => Always.pure (g id)).mono ?_
  rintro n e n' ⟨id, n₁, ⟨rfl, rfl⟩, rfl, rfl⟩
  rw [MakesExpr, hids]
  exact (Made.none (Nat.le_refl _) trivial).node fun _ => hformed _

theorem always_primaryWith {self : Reading Expr} (hself : Always good self (MakesExpr good)) :
    Always good (primaryWith self) (MakesExpr good) := by
  refine Always.acceptThen (fun t ht => ?_) (Always.fail _)
  dsimp only
  split
  · exact always_leaf (fun _ => rfl) fun _ => .literal
  · exact always_leaf (fun _ => rfl) fun _ => .literal
  · exact always_leaf (fun _ => rfl) fun _ => .literal
  · exact always_leaf (fun _ => rfl) fun _ => .self ⟨ht.good, by simp_all⟩
  · exact always_leaf (fun _ => rfl) fun _ => .read ⟨ht.good, by simp_all⟩
  · refine (hself.bind fun inner => (Always.require .rightParen .groupEnd).bind fun _ =>
      Always.fresh.bind fun id => Always.pure _).mono ?_
    rintro n e n' ⟨inner, n₁, hinner, closing, n₂, ⟨-, rfl⟩, id, n₃, ⟨rfl, rfl⟩, rfl, rfl⟩
    exact hinner.node .group
  · exact always_leaf (fun _ => rfl) fun _ => .literal

theorem always_checkRoom {α : Type} (list : BoundedList) (items : List α) :
    Always good (checkRoom list items) fun n _ n' => n' = n := by
  unfold checkRoom
  refine Always.ite ?_ ((Always.pure ()).mono fun _ _ _ h => h.2)
  refine (Always.peek.andThen fun _ t _ ht => Always.record ht.1 (.tooMany list)).mono ?_
  rintro n _ n' ⟨t, n₁, ⟨-, rfl⟩, rfl⟩
  rfl

/-- Items with commas between them: what survives one more item holds of all. -/
theorem always_commaSeparated {α : Type} {list : BoundedList} {item : Reading α} {Q : Outcome α}
    (hitem : Always good item Q) {T : Nat → List α → Nat → Prop} (hnil : ∀ n, T n [] n)
    (hsnoc : ∀ lo items n a n', T lo items n → Q n a n' → T lo (items ++ [a]) n') :
    Always good (commaSeparated list item) T := by
  rw [commaSeparated_eq]
  refine Always.mono (Always.iterate (T := fun items n as n' => ∀ lo, T lo items n → T lo as n')
    (fun items => ?_) []) fun n as n' h => h n (hnil n)
  refine ((always_checkRoom list items).bind fun _ => hitem.bind fun a =>
    (Always.skip? .comma).bind fun b => Always.pure _).mono ?_
  rintro n r n' ⟨-, n₁, rfl, a, n₂, ha, b, n₃, rfl, rfl, rfl⟩
  cases b with
  | false => exact fun lo h => hsnoc lo items _ a _ h ha
  | true => exact fun as n'' hrest lo h => hrest lo (hsnoc lo items _ a _ h ha)

theorem always_unlessNext {α : Type} {kind : Kind} {x : Reading (List α)} {P : Outcome (List α)}
    (hnil : ∀ n, P n [] n) (h : Always good x P) : Always good (unlessNext kind x) P := by
  refine Always.ask (Always.next? kind) fun b => ?_
  cases b with
  | true =>
    refine (Always.pure []).mono ?_
    rintro n as n' ⟨rfl, rfl⟩
    exact hnil _
  | false => exact h

theorem always_finishCallWith {self : Reading Expr} (hself : Always good self (MakesExpr good))
    (callee : Expr) : Always good (finishCallWith self callee) (Wraps good callee) := by
  rw [finishCallWith_eq]
  have hnil : ∀ n, MakesExprs good n [] n := fun n => .none (Nat.le_refl n) (by simp)
  refine ((always_unlessNext hnil (always_commaSeparated hself hnil
      fun lo es n e n' hes he => MakesExprs.snoc hes he)).bind fun arguments =>
    (Always.require .rightParen .argumentsEnd).bind fun paren =>
    Always.fresh.bind fun id => Always.pure _).mono ?_
  rintro n e n' ⟨arguments, n₁, harguments, paren, n₂, ⟨hparen, rfl⟩, id, n₃, ⟨rfl, rfl⟩, rfl, rfl⟩
    lo hcallee
  exact (hcallee.append harguments).node fun both => .call both.1 hparen both.2

theorem always_callWith {self : Reading Expr} (hself : Always good self (MakesExpr good)) :
    Always good (callWith self) (MakesExpr good) := by
  refine Always.mono ((always_primaryWith hself).bind fun callee =>
    Always.iterate (T := Wraps good) (fun callee => ?_) callee) ?_
  · refine Always.acceptThen (fun t ht => Always.ite ?_ ?_) ?_
    · refine ((always_finishCallWith hself callee).bind fun e => Always.pure _).mono ?_
      rintro n r n' ⟨e, n₁, he, rfl, rfl⟩
      exact fun e' n'' hrest lo h => hrest lo (he lo h)
    · refine ((Always.require .identifier .propertyName).bind fun name =>
        Always.fresh.bind fun id => Always.pure _).mono ?_
      rintro n r n' ⟨name, n₁, ⟨hname, rfl⟩, id, n₂, ⟨rfl, rfl⟩, rfl, rfl⟩
      exact fun e' n'' hrest lo h => hrest lo (h.node fun hcallee => .property hcallee hname)
    · refine (Always.pure _).mono ?_
      rintro n r n' ⟨rfl, rfl⟩
      exact fun lo h => h
  · rintro n e n' ⟨callee, n₁, hcallee, hwraps⟩
    exact hwraps n hcallee

theorem always_unaryOperators : Always good unaryOperators fun n ops n' =>
    (∀ op ∈ ops, Apt good [.bang, .minus] op) ∧ n' = n := by
  intro s hahead _
  refine ⟨.drop (List.dropWhile_suffix _), fun op hop => ⟨?_, ?_⟩, rfl⟩
  · exact hahead op ((List.takeWhile_sublist _).subset hop)
  · exact of_decide_eq_true (List.all_eq_true.mp List.all_takeWhile op hop)

theorem always_wrapOperators (operand : Expr) (ops : List Token) :
    Always good (ops.foldrM (fun op operand => do pure (.unary (← fresh) op operand)) operand)
      fun n e n' => (∀ op ∈ ops, Apt good [.bang, .minus] op) → Wraps good operand n e n' := by
  induction ops with
  | nil =>
    refine (Always.pure operand).mono ?_
    rintro n e n' ⟨rfl, rfl⟩ -
    exact fun lo h => h
  | cons op ops ih =>
    rw [List.foldrM_cons]
    refine (ih.bind fun inner => Always.fresh.bind fun id => Always.pure _).mono ?_
    rintro n e n' ⟨inner, n₁, hinner, id, n₂, ⟨rfl, rfl⟩, rfl, rfl⟩ hops lo h
    have hinner := hinner (fun op' hop' => hops op' (List.mem_cons_of_mem _ hop')) lo h
    exact hinner.node (.unary (hops op (List.mem_cons_self ..)))

theorem always_unaryWith {self : Reading Expr} (hself : Always good self (MakesExpr good)) :
    Always good (unaryWith self) (MakesExpr good) := by
  refine (always_unaryOperators.bind fun ops => (always_callWith hself).bind fun operand =>
    always_wrapOperators operand ops).mono ?_
  rintro n e n' ⟨ops, n₁, ⟨hops, rfl⟩, operand, n₂, hoperand, hwraps⟩
  exact hwraps hops _ hoperand

/-- The operators of a level build a node above the two operands. -/
def Level.Makes (good : Token → Prop) (level : Level) : Prop :=
  ∀ id left op right, Apt good level.operators op →
    (level.build id left op right).ids = id :: (left.ids ++ right.ids) ∧
      (left.Formed good → right.Formed good → (level.build id left op right).Formed good)

theorem Level.Makes.binary {operators : List Kind} (h : ∀ kind ∈ operators, kind ∈ binaryKinds) :
    Level.Makes good ⟨operators, .binary⟩ :=
  fun _ _ _ _ hop => ⟨rfl, .binary ⟨hop.good, h _ hop.kind⟩⟩

theorem Level.Makes.logical {operators : List Kind}
    (h : ∀ kind ∈ operators, kind ∈ [.andWord, .orWord]) : Level.Makes good ⟨operators, .logical⟩ :=
  fun _ _ _ _ hop => ⟨rfl, .logical ⟨hop.good, h _ hop.kind⟩⟩

theorem levels_make : ∀ level ∈ levels, level.Makes good := by
  intro level hlevel
  simp only [levels, List.mem_cons, List.not_mem_nil, or_false] at hlevel
  rcases hlevel with rfl | rfl | rfl | rfl | rfl | rfl
  · exact .logical (by decide)
  · exact .logical (by decide)
  all_goals exact .binary (by decide)

theorem always_leftJoined {level : Level} {operand : Reading Expr} (hlevel : level.Makes good)
    (hoperand : Always good operand (MakesExpr good)) :
    Always good (leftJoined level operand) (MakesExpr good) := by
  refine Always.mono (hoperand.bind fun left =>
    Always.iterate (T := Wraps good) (fun left => ?_) left) ?_
  · refine Always.acceptThen (fun op hop => ?_) ?_
    · refine (hoperand.bind fun right => Always.fresh.bind fun id => Always.pure _).mono ?_
      rintro n r n' ⟨right, n₁, hright, id, n₂, ⟨rfl, rfl⟩, rfl, rfl⟩ e' n'' hrest lo hleft
      obtain ⟨hids, hformed⟩ := hlevel _ left op right hop
      have hnode := (hleft.append hright).node fun both => hformed both.1 both.2
      exact hrest lo (hids ▸ hnode)
    · refine (Always.pure _).mono ?_
      rintro n r n' ⟨rfl, rfl⟩
      exact fun lo h => h
  · rintro n e n' ⟨left, n₁, hleft, hwraps⟩
    exact hwraps n hleft

theorem always_binaryFrom {operand : Reading Expr} (hoperand : Always good operand (MakesExpr good)) :
    ∀ ls : List Level, (∀ level ∈ ls, level.Makes good) →
      Always good (binaryFrom operand ls) (MakesExpr good)
  | [], _ => hoperand
  | _ :: tighter, hls => always_leftJoined (hls _ (List.mem_cons_self ..))
      (always_binaryFrom hoperand tighter fun level hlevel =>
        hls level (List.mem_cons_of_mem _ hlevel))

/-- An assignment takes its target apart: the name or the object is kept, and the node of the
target itself is not. A target that cannot be assigned to stands for the whole. -/
theorem always_assignmentWith {self : Reading Expr} (hself : Always good self (MakesExpr good)) :
    Always good (assignmentWith self) (MakesExpr good) := by
  refine Always.mono ((always_binaryFrom (always_unaryWith hself) levels levels_make).bind
    (Q := Wraps good) fun target => Always.acceptThen (fun equals hequals => ?_) ?_) ?_
  · refine Always.mono (hself.bind (Q := fun value n₁ e n' => ∀ lo n,
      Made lo n target.ids (target.Formed good) → Made n n₁ value.ids (value.Formed good) →
        Made lo n' e.ids (e.Formed good)) fun value => ?_) ?_
    · split
      · refine (Always.fresh.bind fun id => Always.pure _).mono ?_
        rintro n₁ e n' ⟨id, n₂, ⟨rfl, rfl⟩, rfl, rfl⟩ lo n htarget hvalue
        refine (hvalue.widen htarget.le (Nat.le_refl _)).node (.assign ?_)
        cases htarget.fact with
        | read hname => exact hname
      · refine (Always.fresh.bind fun id => Always.pure _).mono ?_
        rintro n₁ e n' ⟨id, n₂, ⟨rfl, rfl⟩, rfl, rfl⟩ lo n htarget hvalue
        have hobject := htarget.sublist (List.sublist_cons_self ..)
        refine (hobject.append hvalue).node fun both => ?_
        cases both.1 with
        | property hobject hname => exact .setProperty hobject hname both.2
      · refine ((Always.record hequals.good .assignmentTarget).bind fun _ =>
          Always.pure target).mono ?_
        rintro n₁ e n' ⟨-, n₂, rfl, rfl, rfl⟩ lo n htarget hvalue
        exact htarget.widen (Nat.le_refl _) hvalue.le
    · rintro n e n' ⟨value, n₁, hvalue, hresult⟩ lo htarget
      exact hresult lo n htarget hvalue
  · refine (Always.pure target).mono ?_
    rintro n e n' ⟨rfl, rfl⟩
    exact fun lo h => h
  · rintro n e n' ⟨target, n₁, htarget, hwraps⟩
    exact hwraps n htarget

theorem always_expressionAlong (along : List Token) :
    Always good (expressionAlong along) (MakesExpr good) := by
  induction along with
  | nil => exact always_assignmentWith (Always.fail .tooDeep)
  | cons _ along ih => exact always_assignmentWith ih

theorem always_expression : Always good expression (MakesExpr good) :=
  fun s => always_expressionAlong s.ahead s

end Expressions

/-! ## 3. Statements -/

section Statements

variable {good : Token → Prop}

/-- An expression that may be missing is made. -/
abbrev MakesOption (good : Token → Prop) : Outcome (Option Expr) :=
  fun n o n' => Made n n' (Expr.idsOption o) (∀ e ∈ o, e.Formed good)

/-- A statement or declaration is made. -/
abbrev MakesStmt (good : Token → Prop) : Outcome Stmt :=
  fun n s n' => Made n n' s.ids (s.Formed good)

/-- A statement that is not a declaration is made. -/
abbrev MakesInner (good : Token → Prop) : Outcome Stmt :=
  fun n s n' => Made n n' s.ids (s.Formed good ∧ declaredName? s = none)

/-- Some statements are made, one after the other. -/
abbrev MakesStmts (good : Token → Prop) : Outcome (List Stmt) :=
  fun n ss n' => Made n n' (Stmt.idsAll ss) (∀ s ∈ ss, s.Formed good)

/-- A statement that may be missing is made. -/
abbrev MakesDeclaration (good : Token → Prop) : Outcome (Option Stmt) :=
  fun n o n' => Made n n' (Stmt.idsOption o) (∀ s ∈ o, s.Formed good)

/-- A routine is made. -/
abbrev MakesRoutine (good : Token → Prop) : Outcome Routine :=
  fun n r n' => Made n n' r.ids (r.Formed good)

theorem always_someExpression : Always good (some <$> expression) (MakesOption good) := by
  refine (Always.map some always_expression).mono ?_
  rintro n o n' ⟨e, rfl, he⟩
  exact he.imp fun h e' he' => Option.some.inj he' ▸ h

theorem always_noExpression : Always good (pure none) (MakesOption good) := by
  refine (Always.pure none).mono ?_
  rintro n o n' ⟨rfl, rfl⟩
  exact .none (Nat.le_refl _) (by simp)

theorem always_expressionUnless (kind : Kind) :
    Always good (expressionUnless kind) (MakesOption good) := by
  refine Always.ask (Always.next? kind) fun b => ?_
  exact Always.ite always_noExpression always_someExpression

theorem always_initialValue : Always good initialValue (MakesOption good) := by
  refine Always.ask (Always.skip? .equal) fun b => ?_
  exact Always.ite always_someExpression always_noExpression

theorem always_varDeclaration : Always good varDeclaration (MakesStmt good) := by
  rw [varDeclaration_eq]
  refine ((Always.require .identifier .variableName).bind fun name =>
    always_initialValue.bind fun initializer =>
    (Always.require .semicolon .variableEnd).bind fun _ => Always.pure _).mono ?_
  rintro n s n' ⟨name, n₁, ⟨hname, rfl⟩, initializer, n₂, hinitializer, semicolon, n₃, ⟨-, rfl⟩,
    rfl, rfl⟩
  exact hinitializer.imp (.var hname)

theorem always_expressionStatement : Always good expressionStatement (MakesInner good) := by
  refine (always_expression.bind fun value =>
    (Always.require .semicolon .expressionEnd).bind fun _ => Always.pure _).mono ?_
  rintro n s n' ⟨value, n₁, hvalue, semicolon, n₂, ⟨-, rfl⟩, rfl, rfl⟩
  exact hvalue.imp fun h => ⟨.expression h, rfl⟩

theorem always_printStatement : Always good printStatement (MakesInner good) := by
  refine (always_expression.bind fun value =>
    (Always.require .semicolon .printEnd).bind fun _ => Always.pure _).mono ?_
  rintro n s n' ⟨value, n₁, hvalue, semicolon, n₂, ⟨-, rfl⟩, rfl, rfl⟩
  exact hvalue.imp fun h => ⟨.print h, rfl⟩

theorem always_returnStatement {keyword : Token} (hkeyword : Apt good [.returnWord] keyword) :
    Always good (returnStatement keyword) (MakesInner good) := by
  refine ((always_expressionUnless .semicolon).bind fun value =>
    (Always.require .semicolon .returnEnd).bind fun _ => Always.pure _).mono ?_
  rintro n s n' ⟨value, n₁, hvalue, semicolon, n₂, ⟨-, rfl⟩, rfl, rfl⟩
  exact hvalue.imp fun h => ⟨.ret hkeyword h, rfl⟩

theorem always_atClosingBrace : Always good atClosingBrace fun n _ n' => n' = n := by
  refine ((Always.next? .rightBrace).bind fun b => Always.atEnd.bind fun b' =>
    Always.pure _).mono ?_
  rintro n b n' ⟨b, n₁, rfl, b', n₂, rfl, -, rfl⟩
  rfl

theorem MakesStmts.append {lo n n' : Nat} {ss new : List Stmt} (hss : MakesStmts good lo ss n)
    (hnew : MakesStmts good n new n') : MakesStmts good lo (ss ++ new) n' := by
  have hboth := (Made.append hss hnew).imp List.forall_mem_append.mpr
  rw [MakesStmts, Stmt.idsAll_append]
  exact hboth

theorem MakesStmts.nil (n : Nat) : MakesStmts good n [] n := .none (Nat.le_refl n) (by simp)

/-- A declaration as a list, which is empty if the declaration is left out. -/
theorem always_toList {declaration : Reading (Option Stmt)}
    (hdeclaration : Always good declaration (MakesDeclaration good)) :
    Always good (Option.toList <$> declaration) (MakesStmts good) := by
  refine (Always.map Option.toList hdeclaration).mono ?_
  rintro n ss n' ⟨o, rfl, ho⟩
  rw [MakesStmts, Stmt.idsAll_toList]
  exact ho.imp fun h s hs => h s (Option.mem_toList.mp hs)

theorem always_blockWith {declaration : Reading (Option Stmt)}
    (hdeclaration : Always good declaration (MakesDeclaration good)) :
    Always good (blockWith declaration) (MakesStmts good) := by
  rw [blockWith_eq]
  refine ((Always.repeatUntil always_atClosingBrace (always_toList hdeclaration) MakesStmts.nil
      fun _ _ _ _ _ => MakesStmts.append).bind fun body =>
    (Always.require .rightBrace .blockEnd).bind fun _ => Always.pure _).mono ?_
  rintro n body n' ⟨_, n₁, hbody, brace, n₂, ⟨-, rfl⟩, rfl, rfl⟩
  exact hbody

theorem always_routineWith {declaration : Reading (Option Stmt)}
    (hdeclaration : Always good declaration (MakesDeclaration good)) (role : RoutineRole) :
    Always good (routineWith declaration role) (MakesRoutine good) := by
  rw [routineWith_eq]
  have hparameters : Always good (unlessNext .rightParen (commaSeparated .parameters
      (require .identifier .parameterName))) fun n names n' =>
        (∀ t ∈ names, Apt good [.identifier] t) ∧ n' = n := by
    refine always_unlessNext (by simp) (always_commaSeparated
      (Always.require .identifier .parameterName) (by simp) ?_)
    rintro lo names n name n' ⟨hnames, rfl⟩ ⟨hname, rfl⟩
    exact ⟨List.forall_mem_append.mpr ⟨hnames, List.forall_mem_singleton.mpr hname⟩, rfl⟩
  refine ((Always.require .identifier (.routineName role)).bind fun name =>
    (Always.require .leftParen (.parametersStart role)).bind fun _ =>
    hparameters.bind fun parameters =>
    (Always.require .rightParen .parametersEnd).bind fun _ =>
    (Always.require .leftBrace (.routineBodyStart role)).bind fun _ =>
    (always_blockWith hdeclaration).bind fun body => Always.pure _).mono ?_
  rintro n r n' ⟨name, n₁, ⟨hname, rfl⟩, opening, n₂, ⟨-, rfl⟩, parameters, n₃, ⟨hnames, rfl⟩,
    closing, n₄, ⟨-, rfl⟩, brace, n₅, ⟨-, rfl⟩, body, n₆, hbody, rfl, rfl⟩
  exact hbody.imp fun h => ⟨hname, hnames, h⟩

theorem always_classDeclarationWith {declaration : Reading (Option Stmt)}
    (hdeclaration : Always good declaration (MakesDeclaration good)) :
    Always good (classDeclarationWith declaration) (MakesStmt good) := by
  rw [classDeclarationWith_eq]
  have hmethods : Always good (repeatUntil atClosingBrace
      (List.singleton <$> routineWith declaration .method)) fun n methods n' =>
        Made n n' (Routine.idsAll methods) (∀ r ∈ methods, r.Formed good) := by
    refine Always.repeatUntil always_atClosingBrace
      (Always.map List.singleton (always_routineWith hdeclaration .method))
      (fun n => .none (Nat.le_refl n) (by simp)) ?_
    rintro lo methods n new n' hmethods ⟨r, rfl, hr⟩
    have hboth := (hmethods.append hr).imp fun both =>
      List.forall_mem_append.mpr ⟨both.1, List.forall_mem_singleton.mpr both.2⟩
    rw [Routine.idsAll_append, List.singleton, Routine.idsAll, Routine.idsAll, List.append_nil]
    exact hboth
  refine ((Always.require .identifier .className).bind fun name =>
    (Always.require .leftBrace .classBodyStart).bind fun _ => hmethods.bind fun methods =>
    (Always.require .rightBrace .classBodyEnd).bind fun _ => Always.pure _).mono ?_
  rintro n s n' ⟨name, n₁, ⟨hname, rfl⟩, brace, n₂, ⟨-, rfl⟩, methods, n₃, hmethods, closing, n₄,
    ⟨-, rfl⟩, rfl, rfl⟩
  exact hmethods.imp (.ofMethods hname)

theorem always_forInitializer : Always good forInitializer (MakesDeclaration good) := by
  have hsome : ∀ {x : Reading Stmt}, Always good x (MakesStmt good) →
      Always good (some <$> x) (MakesDeclaration good) := by
    intro x hx
    refine (Always.map some hx).mono ?_
    rintro n o n' ⟨s, rfl, hs⟩
    exact hs.imp fun h s' hs' => Option.some.inj hs' ▸ h
  refine Always.ask (Always.skip? .semicolon) fun b => Always.ite ?_ ?_
  · refine (Always.pure none).mono ?_
    rintro n o n' ⟨rfl, rfl⟩
    exact .none (Nat.le_refl _) (by simp)
  · refine Always.ask (Always.skip? .varWord) fun b => Always.ite ?_ ?_
    · exact hsome always_varDeclaration
    · exact hsome (always_expressionStatement.mono fun _ _ _ h => h.imp And.left)

theorem always_conditionOrTrue (condition : Option Expr) :
    Always good (conditionOrTrue condition) fun n e n' =>
      (condition = some e ∧ n' = n) ∨ (condition = none ∧ e = .literal n (.bool true) ∧ n' = n + 1) := by
  cases condition with
  | some condition =>
    refine (Always.pure condition).mono ?_
    rintro n e n' ⟨rfl, rfl⟩
    exact .inl ⟨rfl, rfl⟩
  | none =>
    refine (Always.fresh.bind fun id => Always.pure _).mono ?_
    rintro n e n' ⟨id, n₁, ⟨rfl, rfl⟩, rfl, rfl⟩
    exact .inr ⟨rfl, rfl, rfl⟩

/-- The condition that stands for a missing one gets its identity last, after the body. -/
theorem always_forStatementWith {statement : Reading Stmt}
    (hstatement : Always good statement (MakesInner good)) :
    Always good (forStatementWith statement) (MakesInner good) := by
  rw [forStatementWith_eq]
  refine ((Always.require .leftParen .forStart).bind fun _ =>
    always_forInitializer.bind fun first =>
    (always_expressionUnless .semicolon).bind fun condition =>
    (Always.require .semicolon .forConditionEnd).bind fun _ =>
    (always_expressionUnless .rightParen).bind fun increment =>
    (Always.require .rightParen .forClausesEnd).bind fun _ =>
    hstatement.bind fun body => (always_conditionOrTrue condition).bind fun _ =>
    Always.pure _).mono ?_
  rintro n s n' ⟨opening, n₁, ⟨-, rfl⟩, first, n₂, hfirst, condition, n₃, hcondition, semicolon, n₄,
    ⟨-, rfl⟩, increment, n₅, hincrement, closing, n₆, ⟨-, rfl⟩, body, n₇, hbody, condition', n₈,
    hcases, rfl, rfl⟩
  have hall := hfirst.append (hcondition.append (hincrement.append hbody))
  have hmade : Made n₁ n' (Stmt.idsOption first ++ (condition'.ids ++ (Expr.idsOption increment
      ++ body.ids))) ((∀ s ∈ first, s.Formed good) ∧ condition'.Formed good ∧
        (∀ e ∈ increment, e.Formed good) ∧ body.Formed good ∧ declaredName? body = none) := by
    rcases hcases with ⟨rfl, rfl⟩ | ⟨rfl, rfl, rfl⟩
    · exact hall.imp fun ⟨h₁, h₂, h₃⟩ => ⟨h₁, h₂ _ rfl, h₃⟩
    · refine (hall.node fun ⟨h₁, _, h₃⟩ => ⟨h₁, .literal, h₃⟩).perm ?_
      exact List.perm_middle.symm
  refine (hmade.perm (perm_ids_forLoop first condition' increment body)).imp ?_
  rintro ⟨h₁, h₂, h₃, h₄, h₅⟩
  exact ⟨formed_forLoop h₁ h₂ h₃ h₄ h₅, Phrase.declaredName?_forLoop _ _ _ _⟩

theorem always_ifStatementWith {statement : Reading Stmt}
    (hstatement : Always good statement (MakesInner good)) :
    Always good (ifStatementWith statement) (MakesInner good) := by
  refine ((Always.require .leftParen .ifStart).bind fun _ =>
    always_expression.bind fun condition =>
    (Always.require .rightParen .ifConditionEnd).bind fun _ =>
    hstatement.bind fun thenBranch => Always.ask (P := fun n s n' => ∀ lo, Made lo n
        (condition.ids ++ thenBranch.ids) (condition.Formed good ∧ thenBranch.Formed good ∧
          declaredName? thenBranch = none) → MakesInner good lo s n')
      (Always.skip? .elseWord) fun b => Always.ite ?_ ?_).mono ?_
  · refine (hstatement.bind fun elseBranch => Always.pure _).mono ?_
    rintro n s n' ⟨elseBranch, n₁, helse, rfl, rfl⟩ lo hbefore
    rw [MakesInner, Stmt.ids, ← List.append_assoc]
    refine (hbefore.append helse).imp ?_
    rintro ⟨⟨hcondition, hthen, hname⟩, helse, hname'⟩
    exact ⟨.ifElse hcondition hname hthen hname' helse, rfl⟩
  · refine (Always.pure _).mono ?_
    rintro n s n' ⟨rfl, rfl⟩ lo hbefore
    refine hbefore.imp ?_
    rintro ⟨hcondition, hthen, hname⟩
    exact ⟨.ifThen hcondition hname hthen, rfl⟩
  · rintro n s n' ⟨opening, n₁, ⟨-, rfl⟩, condition, n₂, hcondition, closing, n₃, ⟨-, rfl⟩, thenBranch,
      n₄, hthen, hrest⟩
    exact hrest _ (hcondition.append hthen)

theorem always_whileStatementWith {statement : Reading Stmt}
    (hstatement : Always good statement (MakesInner good)) :
    Always good (whileStatementWith statement) (MakesInner good) := by
  refine ((Always.require .leftParen .whileStart).bind fun _ =>
    always_expression.bind fun condition =>
    (Always.require .rightParen .whileConditionEnd).bind fun _ =>
    hstatement.bind fun body => Always.pure _).mono ?_
  rintro n s n' ⟨opening, n₁, ⟨-, rfl⟩, condition, n₂, hcondition, closing, n₃, ⟨-, rfl⟩, body, n₄,
    hbody, rfl, rfl⟩
  exact (hcondition.append hbody).imp fun ⟨h, h', hname⟩ => ⟨.loop h hname h', rfl⟩

theorem always_statementWith {declaration : Reading (Option Stmt)} {statement : Reading Stmt}
    (hdeclaration : Always good declaration (MakesDeclaration good))
    (hstatement : Always good statement (MakesInner good)) :
    Always good (statementWith declaration statement) (MakesInner good) := by
  refine Always.acceptThen (fun t ht => ?_) always_expressionStatement
  dsimp only
  split
  · exact always_forStatementWith hstatement
  · exact always_ifStatementWith hstatement
  · exact always_printStatement
  · exact always_returnStatement ⟨ht.good, by simp_all⟩
  · exact always_whileStatementWith hstatement
  · refine (Always.map Stmt.block (always_blockWith hdeclaration)).mono ?_
    rintro n s n' ⟨body, rfl, hbody⟩
    exact hbody.imp fun h => ⟨.block h, rfl⟩

/-- A sentence that is left out leaves nothing but unused identities. -/
theorem always_recovering {x : Reading Stmt} (h : Always good x (MakesStmt good)) :
    Always good (recovering x) (MakesDeclaration good) := by
  refine (Always.recovering h).mono ?_
  rintro n o n' ⟨hle, hsome⟩
  cases o with
  | none => exact .none hle (by simp)
  | some s => exact (hsome s rfl).imp fun h s' hs' => Option.some.inj hs' ▸ h

theorem always_declarationWith {declaration : Reading (Option Stmt)} {statement : Reading Stmt}
    (hdeclaration : Always good declaration (MakesDeclaration good))
    (hstatement : Always good statement (MakesInner good)) :
    Always good (declarationWith declaration statement) (MakesDeclaration good) := by
  refine always_recovering (Always.acceptThen (fun t ht => ?_) ?_)
  · dsimp only
    split
    · exact always_classDeclarationWith hdeclaration
    · refine (Always.map Stmt.function (always_routineWith hdeclaration .function)).mono ?_
      rintro n s n' ⟨routine, rfl, hroutine⟩
      exact hroutine.imp .ofRoutine
    · exact always_varDeclaration
  · exact hstatement.mono fun _ _ _ h => h.imp And.left

theorem always_tooDeep : Always good (recovering (fail .tooDeep)) (MakesDeclaration good) :=
  always_recovering (Always.fail .tooDeep)

mutual
theorem always_declarationAlong : ∀ along : List Token,
    Always good (declarationAlong along) (MakesDeclaration good)
  | [] => by
      rw [declarationAlong]
      exact always_declarationWith always_tooDeep
        (always_statementWith always_tooDeep (Always.fail .tooDeep))
  | _ :: along => by
      rw [declarationAlong]
      exact always_declarationWith (always_declarationAlong along)
        (always_statementWith (always_declarationAlong along) (always_statementAlong along))

theorem always_statementAlong : ∀ along : List Token,
    Always good (statementAlong along) (MakesInner good)
  | [] => by
      rw [statementAlong]
      exact always_statementWith always_tooDeep (Always.fail .tooDeep)
  | _ :: along => by
      rw [statementAlong]
      exact always_statementWith (always_declarationAlong along) (always_statementAlong along)
end

theorem always_declaration : Always good declaration (MakesDeclaration good) :=
  fun s => always_declarationAlong s.ahead s

theorem always_script : Always good script (MakesStmts good) := by
  rw [script_eq]
  exact Always.repeatUntil Always.atEnd (always_toList always_declaration) MakesStmts.nil
    fun _ _ _ _ _ => MakesStmts.append

end Statements

/-! ## 4. Lists of tokens -/

/-- Whatever the tokens are, the statements that are read are well formed, their expressions have
different identities among those that are handed out, and every fault points at a token. -/
theorem parse_made {good : Token → Prop} {tokens : List Token} (hgood : Good good tokens)
    (hstop : good (stopOf tokens)) (n : Nat) :
    MakesStmts good n (parse tokens n).statements (parse tokens n).nextId ∧
      ∀ fault ∈ (parse tokens n).faults, PointsAt good fault := by
  have hahead : Good good (State.start tokens n).ahead :=
    fun t ht => hgood t ((List.takeWhile_sublist _).subset ht)
  have hscript := always_script (State.start tokens n) hahead hstop
  unfold parse
  cases hrun : script (State.start tokens n) with
  | ok statements s =>
    rw [hrun] at hscript
    obtain ⟨hfollows, hmade⟩ := hscript
    obtain ⟨new, hnew, hpoints⟩ := hfollows.faults
    obtain rfl : s.faults = new := hnew
    exact ⟨hmade, hpoints⟩
  | error fault s =>
    rw [hrun] at hscript
    obtain ⟨hpoint, hfollows⟩ := hscript
    obtain ⟨new, hnew, hpoints⟩ := hfollows.faults
    obtain rfl : s.faults = new := hnew
    refine ⟨.none hfollows.nextId (by simp), fun fault' hfault' => ?_⟩
    rcases List.mem_append.mp hfault' with hmem | hmem
    · exact hpoints fault' hmem
    · rw [List.mem_singleton.mp hmem]
      exact hpoint

end ScriptLang.Grammar
