/-
ScriptLang.Proofs.Grammar.Pace — reading takes tokens.

The reader works within two bounds: repetitions have one round for each token
ahead, and sentences are inside one another at most as often as there are
tokens ahead. Neither bound is ever met, because a round that asks for another
one has taken a token, and an inner sentence begins after a token of the outer
one.

`Paced` says both at once of two readings. They do the same as long as fewer
than a number of tokens are ahead, go forward, take a number of tokens for a
result, and meet no bound. A rule of the grammar is paced if what it calls for
inner sentences is paced on fewer tokens, so the lemmas on the rules make up an
induction on the tokens ahead (`paced_expressionAlong`,
`paced_sentencesAlong`), whatever lists the knots are tied along.

What follows is that the bounds could as well be missing. Expressions,
statements and declarations are read by their rules, which call themselves
(`expression_eq`, `statement_eq`, `declaration_eq`), a repetition goes on for as
long as it has to (`iterate_eq`), and a script is read to the end
(`script_ends`).
-/
import ScriptLang.Proofs.Grammar.Alongside
import ScriptLang.Proofs.Grammar.Outcomes

namespace ScriptLang

/-- Whether a fault says that a bound of the reader was met. No other fault does. -/
def Fault.isTooDeep : Fault → Bool
  | .grammar _ .tooDeep => true
  | _ => false

namespace Grammar

/-! ## 1. Paces -/

/-- Reading went forward from one state to another, and met no bound on the way. -/
structure State.Forward (s s' : State) : Prop where
  stop : s'.stop = s.stop
  ahead : s'.ahead <:+ s.ahead
  faults : ∃ new, s'.faults = s.faults ++ new ∧ ∀ fault ∈ new, fault.isTooDeep = false

namespace State.Forward

variable {s s₁ s₂ : State}

theorem of_ahead (hstop : s₁.stop = s.stop) (hfaults : s₁.faults = s.faults)
    (hahead : s₁.ahead <:+ s.ahead) : s.Forward s₁ :=
  ⟨hstop, hahead, [], by simp [hfaults], by simp⟩

theorem refl (s : State) : s.Forward s :=
  of_ahead rfl rfl (List.suffix_refl _)

theorem trans (h : s.Forward s₁) (h' : s₁.Forward s₂) : s.Forward s₂ := by
  obtain ⟨new, hnew, hbelow⟩ := h.faults
  obtain ⟨new', hnew', hbelow'⟩ := h'.faults
  refine ⟨h'.stop.trans h.stop, h'.ahead.trans h.ahead, new ++ new', by simp [hnew', hnew], ?_⟩
  intro fault hfault
  exact (List.mem_append.mp hfault).elim (hbelow fault) (hbelow' fault)

theorem length_le (h : s.Forward s₁) : s₁.ahead.length ≤ s.ahead.length :=
  h.ahead.length_le

end State.Forward

/-- Two readings do the same from any state with at least `low` and fewer than `high` tokens
ahead. They go forward, meet no bound, and take at least as many tokens for a result as
`pace` says. -/
def Paced {α : Type} (low high : Nat) (pace : α → Nat) (x x' : Reading α) : Prop :=
  ∀ s, low ≤ s.ahead.length → s.ahead.length < high → match x s with
    | .ok a s' => x' s = .ok a s' ∧ s.Forward s' ∧ s'.ahead.length + pace a ≤ s.ahead.length
    | .error fault s' => x' s = .error fault s' ∧ s.Forward s' ∧ fault.isTooDeep = false

/-- Two readings that do the same on fewer than `bound` tokens, and take at least `pace` for a
result. -/
abbrev Steady {α : Type} (bound pace : Nat) (x x' : Reading α) : Prop :=
  Paced 0 bound (fun _ => pace) x x'

/-- Two steps do the same on fewer than `bound` tokens, and take one before another round. -/
def Rounds {α β : Type} (bound : Nat) (step step' : α → Reading (α ⊕ β)) : Prop :=
  ∀ a, Paced 0 bound (Sum.elim (fun _ : α => 1) fun _ : β => 0) (step a) (step' a)

namespace Paced

variable {α β : Type} {low low' high high' : Nat} {p p' : α → Nat} {q : β → Nat} {x x' : Reading α}
variable {f f' : α → Reading β}

theorem mono (h : Paced low high p x x') (hlow : low ≤ low') (hhigh : high' ≤ high)
    (hpace : ∀ a, p' a ≤ p a) : Paced low' high' p' x x' := by
  intro s hle hlt
  have hs := h s (by omega) (by omega)
  cases hx : x s with
  | ok a s' =>
    rw [hx] at hs
    obtain ⟨hx', hforward, hlength⟩ := hs
    have hp := hpace a
    exact ⟨hx', hforward, by omega⟩
  | error fault s' => rw [hx] at hs; exact hs

/-- A pace that is kept is kept at a lower one. -/
theorem slower {bound j k : Nat} (h : Steady bound k x x') (hle : j ≤ k) : Steady bound j x x' :=
  h.mono (Nat.le_refl _) (Nat.le_refl _) fun _ => hle

theorem fewer {bound bound' k : Nat} (h : Steady bound k x x') (hle : bound' ≤ bound) :
    Steady bound' k x x' :=
  h.mono (Nat.le_refl _) hle fun _ => Nat.le_refl _

/-- There are never fewer than no tokens. -/
theorem zero : Paced low 0 p x x' :=
  fun _ _ hlt => absurd hlt (Nat.not_lt_zero _)

/-- What comes next has the tokens that are left. -/
protected theorem bind {r : α → β → Nat} (h : Paced low high p x x')
    (hf : ∀ a, Paced 0 (high - p a) (r a) (f a) (f' a)) (hr : ∀ a b, q b ≤ p a + r a b) :
    Paced low high q (x >>= f) (x' >>= f') := by
  intro s hle hlt
  have hs := h s hle hlt
  show match EStateM.bind x f s with
    | .ok b s' => EStateM.bind x' f' s = _ ∧ _
    | .error fault s' => EStateM.bind x' f' s = _ ∧ _
  unfold EStateM.bind
  cases hx : x s with
  | error fault s₁ =>
    rw [hx] at hs
    obtain ⟨hx', hforward, hfault⟩ := hs
    exact ⟨by rw [hx'], hforward, hfault⟩
  | ok a s₁ =>
    rw [hx] at hs
    obtain ⟨hx', hforward, hlength⟩ := hs
    have hs₁ := hf a s₁ (Nat.zero_le _) (by omega)
    dsimp only
    cases hfa : f a s₁ with
    | error fault s₂ =>
      rw [hfa] at hs₁
      obtain ⟨hfa', hforward', hfault⟩ := hs₁
      exact ⟨by rw [hx']; exact hfa', hforward.trans hforward', hfault⟩
    | ok b s₂ =>
      rw [hfa] at hs₁
      obtain ⟨hfa', hforward', hlength'⟩ := hs₁
      have hpace := hr a b
      exact ⟨by rw [hx']; exact hfa', hforward.trans hforward', by omega⟩

/-- Two steps one after the other, with as many tokens as for the first one. -/
theorem andThen {j k : Nat} (h : Paced low high (fun _ => j) x x')
    (hf : ∀ a, Steady high k (f a) (f' a)) :
    Paced low high (fun _ => j + k) (x >>= f) (x' >>= f') :=
  h.bind (fun a => (hf a).mono (Nat.le_refl _) (Nat.sub_le _ _) fun _ => Nat.le_refl _)
    fun _ _ => Nat.le_refl _

/-- The first of two steps takes what is asked for. -/
theorem first {j k : Nat} (h : Paced low high (fun _ => j) x x')
    (hf : ∀ a, Steady high k (f a) (f' a)) :
    Paced low high (fun _ => j) (x >>= f) (x' >>= f') :=
  (h.andThen hf).mono (Nat.le_refl _) (Nat.le_refl _) fun _ => Nat.le_add_right j k

theorem pure {bound : Nat} (a : α) : Steady bound 0 (Pure.pure a) (Pure.pure a) :=
  fun s _ _ => ⟨rfl, .refl s, Nat.le_refl _⟩

protected theorem map {k : Nat} (g : α → β) (h : Paced low high (fun _ => k) x x') :
    Paced low high (fun _ => k) (g <$> x) (g <$> x') := by
  have hmap : ∀ y : Reading α, g <$> y = y >>= fun a => Pure.pure (g a) := by
    intro y
    rw [bind_pure_comp]
  rw [hmap, hmap]
  exact h.andThen fun a => pure (g a)

/-- A reading that fails takes nothing for a result. -/
theorem fail {cause : GrammarCause} (h : cause ≠ .tooDeep) :
    Paced low high p (Grammar.fail cause) (Grammar.fail cause) := by
  intro s _ _
  refine ⟨rfl, .refl s, ?_⟩
  cases cause <;> first | rfl | exact absurd rfl h

/-- A reading that only looks. -/
theorem look {bound : Nat} (hx : ∀ s, ∃ a, x s = .ok a s) : Steady bound 0 x x := by
  intro s _ _
  obtain ⟨a, ha⟩ := hx s
  rw [ha]
  exact ⟨rfl, .refl s, Nat.le_refl _⟩

theorem peek {bound : Nat} : Steady bound 0 Grammar.peek Grammar.peek :=
  look fun _ => ⟨_, rfl⟩

theorem next? {bound : Nat} (kind : Kind) :
    Steady bound 0 (Grammar.next? kind) (Grammar.next? kind) :=
  look fun _ => ⟨_, rfl⟩

theorem fresh {bound : Nat} : Steady bound 0 Grammar.fresh Grammar.fresh :=
  fun _ _ _ => ⟨rfl, .of_ahead rfl rfl (List.suffix_refl _), Nat.le_refl _⟩

theorem record {bound : Nat} (token : Token) {cause : GrammarCause} (h : cause ≠ .tooDeep) :
    Steady bound 0 (Grammar.record token cause) (Grammar.record token cause) := by
  intro s _ _
  refine ⟨rfl, ⟨rfl, List.suffix_refl _, [_], rfl, ?_⟩, Nat.le_refl _⟩
  intro fault hfault
  rw [List.mem_singleton.mp hfault]
  cases cause <;> first | rfl | exact absurd rfl h

/-- A reading that begins with an optional token has taken one if the token is there. -/
theorem acceptThen {bound : Nat} {kinds : List Kind} {f f' : Option Token → Reading α}
    (hp : ∀ a, p a ≤ 1)
    (hsome : ∀ t, t.kind ∈ kinds → Steady bound 0 (f (some t)) (f' (some t)))
    (hnone : Paced 0 (bound + 1) p (f none) (f' none)) :
    Paced 0 (bound + 1) p (Grammar.accept? kinds >>= f) (Grammar.accept? kinds >>= f') := by
  intro s hle hlt
  rcases accept?_cases kinds s with ⟨haccept, -⟩ | ⟨t, rest, hahead, hkind, haccept⟩
  · rw [bind_of_ok haccept, bind_of_ok haccept]
    exact hnone s hle hlt
  · have hlength : s.ahead.length = rest.length + 1 := by rw [hahead, List.length_cons]
    have hforward : s.Forward { s with ahead := rest } :=
      .of_ahead rfl rfl (hahead ▸ List.suffix_cons t rest)
    rw [bind_of_ok haccept, bind_of_ok haccept]
    have hs := hsome t hkind { s with ahead := rest } (Nat.zero_le _)
      (show rest.length < bound by omega)
    cases hf : f (some t) { s with ahead := rest } with
    | ok a s' =>
      rw [hf] at hs
      obtain ⟨hf', hforward', hle'⟩ := hs
      have hrest : s'.ahead.length ≤ rest.length := hle'
      have hpace := hp a
      exact ⟨hf', hforward.trans hforward', by omega⟩
    | error fault s' =>
      rw [hf] at hs
      obtain ⟨hf', hforward', hfault⟩ := hs
      exact ⟨hf', hforward.trans hforward', hfault⟩

theorem accept? {bound : Nat} (kinds : List Kind) :
    Steady bound 0 (Grammar.accept? kinds) (Grammar.accept? kinds) := by
  cases bound with
  | zero => exact zero
  | succ bound =>
    have hthen : Steady (bound + 1) 0 (Grammar.accept? kinds >>= Pure.pure)
        (Grammar.accept? kinds >>= Pure.pure) :=
      acceptThen (fun _ => Nat.zero_le _) (fun t _ => pure (some t)) (pure none)
    rwa [bind_pure] at hthen

theorem require {bound : Nat} (kind : Kind) (wanted : Wanted) :
    Steady bound 1 (Grammar.require kind wanted) (Grammar.require kind wanted) := by
  cases bound with
  | zero => exact zero
  | succ bound => exact acceptThen (fun _ => Nat.le_refl _) (fun t _ => pure t) (fail (by simp))

theorem skip? {bound : Nat} (kind : Kind) :
    Steady bound 0 (Grammar.skip? kind) (Grammar.skip? kind) := by
  cases bound with
  | zero => exact zero
  | succ bound => exact acceptThen (fun _ => Nat.zero_le _) (fun _ _ => pure true) (pure false)

theorem ite {c : Prop} [Decidable c] {y y' : Reading α}
    (hx : Paced low high p x x') (hy : Paced low high p y y') :
    Paced low high p (if c then x else y) (if c then x' else y') := by
  split
  · exact hx
  · exact hy

/-! ## 2. Repetitions -/

/-- One round, and the rounds after it. -/
theorem round {bound : Nat} {step step' : α → Reading (α ⊕ β)} {next next' : α → Reading β}
    (hstep : Rounds high step step') (hbound : bound ≤ high)
    (hnext : ∀ a, Steady (bound - 1) 0 (next a) (next' a)) (a : α) :
    Steady bound 0 (step a >>= Sum.elim next Pure.pure) (step' a >>= Sum.elim next' Pure.pure) := by
  refine ((hstep a).mono (Nat.le_refl _) hbound fun _ => Nat.le_refl _).bind
    (r := fun _ _ => 0) (fun r => ?_) (fun _ _ => Nat.zero_le _)
  cases r with
  | inl a' => exact hnext a'
  | inr b => exact pure b

/-- A repetition whose rounds take tokens has as many rounds as it needs. -/
theorem iterateAlong {step step' : α → Reading (α ⊕ β)}
    (hstep : Rounds high step step') (along along' : List Token) (a : α) :
    Steady (min high (min along.length along'.length + 1)) 0 (Grammar.iterateAlong step along a)
      (Grammar.iterateAlong step' along' a) := by
  induction along generalizing along' a with
  | nil =>
    rw [iterateAlong_eq, iterateAlong_eq]
    refine round hstep (Nat.min_le_left _ _) (fun a' => ?_) a
    refine zero.mono (Nat.le_refl _) ?_ fun _ => Nat.le_refl _
    simp only [List.length_nil]
    omega
  | cons t along ih =>
    rw [iterateAlong_eq, iterateAlong_eq]
    refine round hstep (Nat.min_le_left _ _) (fun a' => ?_) a
    cases along' with
    | nil =>
      refine zero.mono (Nat.le_refl _) ?_ fun _ => Nat.le_refl _
      simp only [List.length_nil, List.length_cons]
      omega
    | cons t' along' =>
      refine (ih along' a').mono (Nat.le_refl _) ?_ fun _ => Nat.le_refl _
      simp only [List.length_cons]
      omega

theorem iterate {step step' : α → Reading (α ⊕ β)}
    (hstep : Rounds high step step') (a : α) :
    Steady high 0 (Grammar.iterate a step) (Grammar.iterate a step') := by
  intro s hle hlt
  exact iterateAlong hstep s.ahead s.ahead a s hle (by omega)

/-- The two readings do the same. -/
theorem eq (h : Paced low high p x x') {s : State} (hle : low ≤ s.ahead.length)
    (hlt : s.ahead.length < high) : x s = x' s := by
  have hs := h s hle hlt
  cases hx : x s with
  | ok a s' | error fault s' =>
    rw [hx] at hs
    exact hs.1.symm

end Paced

/-- A repetition whose rounds take tokens is one without a bound. -/
theorem iterate_eq {α β : Type} {step : α → Reading (α ⊕ β)}
    (hstep : ∀ bound, Rounds bound step step) (a : α) :
    iterate a step = step a >>= Sum.elim (fun a' => iterate a' step) pure := by
  funext s
  show iterateAlong step s.ahead a s = _
  rw [iterateAlong_eq]
  refine (Paced.round (hstep (s.ahead.length + 1)) (Nat.le_refl _) (fun a' => ?_) a).eq
    (Nat.zero_le _) (Nat.lt_succ_self _)
  cases s.ahead with
  | nil => exact Paced.zero
  | cons t rest =>
    intro s₁ hle hlt
    have hlt' : s₁.ahead.length < rest.length + 1 := hlt
    exact Paced.iterateAlong (hstep (rest.length + 1)) rest s₁.ahead a' s₁ hle (by omega)

/-! ## 3. Expressions -/

section Expressions

variable {bound : Nat} {self self' : Reading Expr}

theorem paced_checkRoom {α : Type} (list : BoundedList) (items : List α) :
    Steady bound 0 (checkRoom list items) (checkRoom list items) :=
  .ite (Paced.peek.andThen fun token => .record token (by simp)) (.pure ())

theorem paced_separatedRound {α : Type} {list : BoundedList} {item item' : Reading α}
    (hitem : Steady bound 1 item item') :
    Rounds bound (separatedRound list item) (separatedRound list item') := by
  intro items
  have hround := (paced_checkRoom list items).andThen fun _ => hitem.andThen fun a =>
    (Paced.skip? .comma).andThen fun more => Paced.pure (if more then Sum.inl (items ++ [a])
      else Sum.inr (items ++ [a]))
  refine hround.mono (Nat.le_refl _) (Nat.le_refl _) fun r => ?_
  cases r <;> simp

theorem paced_commaSeparated {α : Type} {list : BoundedList} {item item' : Reading α}
    (hitem : Steady bound 1 item item') :
    Steady bound 0 (commaSeparated list item) (commaSeparated list item') := by
  rw [commaSeparated_eq, commaSeparated_eq]
  exact .iterate (paced_separatedRound hitem) []

theorem paced_unlessNext {α : Type} {kind : Kind} {x x' : Reading (List α)}
    (hx : Steady bound 0 x x') : Steady bound 0 (unlessNext kind x) (unlessNext kind x') :=
  (Paced.next? kind).andThen fun _ => .ite (.pure []) hx

/-- A leaf of the tree, with an identity of its own. -/
theorem paced_leaf (g : Nat → Expr) :
    Steady bound 0 (do pure (g (← fresh))) (do pure (g (← fresh))) :=
  Paced.fresh.andThen fun id => .pure (g id)

theorem paced_primaryWith (hself : Steady bound 1 self self') :
    Steady (bound + 1) 1 (primaryWith self) (primaryWith self') := by
  refine .acceptThen (fun _ => Nat.le_refl _) (fun t _ => ?_) (.fail (by simp))
  dsimp only
  split
  case h_6 =>
    have hgroup := hself.andThen fun inner => (Paced.require .rightParen .groupEnd).andThen
      fun _ => paced_leaf fun id => .group id inner
    exact hgroup.slower (Nat.zero_le _)
  all_goals exact paced_leaf _

theorem paced_finishCallWith (hself : Steady bound 1 self self') (callee : Expr) :
    Steady bound 1 (finishCallWith self callee) (finishCallWith self' callee) := by
  rw [finishCallWith_eq, finishCallWith_eq]
  exact (paced_unlessNext (paced_commaSeparated hself)).andThen fun arguments =>
    (Paced.require .rightParen .argumentsEnd).andThen fun paren =>
    paced_leaf fun id => .call id callee paren arguments

/-- A round that goes on with a larger expression. -/
theorem paced_grown {x x' : Reading Expr} (hx : Steady bound 0 x x') :
    Steady bound 0 (do let e ← x; pure (Sum.inl e : Expr ⊕ Expr)) (do let e ← x'; pure (.inl e)) :=
  hx.andThen fun e => Paced.pure (Sum.inl e : Expr ⊕ Expr)

theorem paced_callRound (hself : Steady bound 1 self self') :
    Rounds (bound + 1) (callRound self) (callRound self') := by
  intro callee
  refine .acceptThen (fun r => by cases r <;> simp) (fun t _ => .ite ?_ ?_) (.pure _)
  · exact paced_grown ((paced_finishCallWith hself callee).slower (Nat.zero_le _))
  · have hname : Steady bound 1 (require .identifier .propertyName)
        (require .identifier .propertyName) := Paced.require _ _
    have hproperty := hname.andThen fun name =>
      paced_grown (paced_leaf fun id => .property id callee name)
    exact hproperty.slower (Nat.zero_le _)

theorem paced_callWith (hself : Steady bound 1 self self') :
    Steady (bound + 1) 1 (callWith self) (callWith self') := by
  rw [callWith_eq, callWith_eq]
  exact (paced_primaryWith hself).andThen fun callee => .iterate (paced_callRound hself) callee

theorem paced_unaryOperators : Steady bound 0 unaryOperators unaryOperators :=
  fun _ _ _ => ⟨rfl, .of_ahead rfl rfl (List.dropWhile_suffix _),
    (List.dropWhile_suffix _).length_le⟩

theorem paced_wrapOperators (operand : Expr) (ops : List Token) :
    Steady bound 0
      (ops.foldrM (fun op operand => do pure (.unary (← fresh) op operand)) operand)
      (ops.foldrM (fun op operand => do pure (.unary (← fresh) op operand)) operand) := by
  induction ops with
  | nil => exact .pure operand
  | cons op ops ih =>
    rw [List.foldrM_cons]
    exact ih.andThen fun inner => paced_leaf fun id => .unary id op inner

theorem paced_unaryWith (hself : Steady bound 1 self self') :
    Steady (bound + 1) 1 (unaryWith self) (unaryWith self') :=
  paced_unaryOperators.andThen fun ops => (paced_callWith hself).andThen fun operand =>
    paced_wrapOperators operand ops

theorem paced_operatorRound (level : Level) {operand operand' : Reading Expr}
    (hoperand : Steady (bound + 1) 1 operand operand') :
    Rounds (bound + 1) (operatorRound level operand) (operatorRound level operand') := by
  intro left
  refine .acceptThen (fun r => by cases r <;> simp) (fun op _ => ?_) (.pure _)
  have hright := hoperand.fewer (Nat.le_succ bound)
  have hround := hright.andThen fun right => Paced.fresh.andThen fun id =>
    Paced.pure (Sum.inl (level.build id left op right) : Expr ⊕ Expr)
  exact hround.slower (Nat.zero_le _)

theorem paced_binaryFrom {operand operand' : Reading Expr}
    (hoperand : Steady (bound + 1) 1 operand operand') (ls : List Level) :
    Steady (bound + 1) 1 (binaryFrom operand ls) (binaryFrom operand' ls) := by
  induction ls with
  | nil => exact hoperand
  | cons level tighter ih =>
    rw [binaryFrom, binaryFrom, leftJoined_eq, leftJoined_eq]
    exact ih.andThen fun left => .iterate (paced_operatorRound level ih) left

theorem paced_assignmentWith (hself : Steady bound 1 self self') :
    Steady (bound + 1) 1 (assignmentWith self) (assignmentWith self') := by
  refine (paced_binaryFrom (paced_unaryWith hself) levels).andThen (k := 0) fun target =>
    .acceptThen (fun _ => Nat.zero_le _) (fun equals _ => ?_) (.pure target)
  refine (hself.slower (Nat.zero_le 1)).andThen (k := 0) fun value => ?_
  split
  · exact paced_leaf _
  · exact paced_leaf _
  · exact (Paced.record equals (by simp)).andThen fun _ => .pure target

/-- An expression is read alike along any lists that are as long as the tokens ahead. -/
theorem paced_expressionAlong (bound : Nat) (along along' : List Token)
    (hle : bound ≤ along.length + 1) (hle' : bound ≤ along'.length + 1) :
    Steady bound 1 (expressionAlong along) (expressionAlong along') := by
  induction bound generalizing along along' with
  | zero => exact .zero
  | succ bound ih =>
    cases along with
    | nil =>
      obtain rfl : bound = 0 := by simpa using hle
      cases along' with
      | nil | cons => exact paced_assignmentWith .zero
    | cons t along =>
      cases along' with
      | nil =>
        obtain rfl : bound = 0 := by simpa using hle'
        exact paced_assignmentWith .zero
      | cons t' along' =>
        exact paced_assignmentWith (ih along along' (by simpa using hle) (by simpa using hle'))

theorem paced_expression_along (along : List Token) :
    Steady (along.length + 1) 1 (expressionAlong along) expression := by
  intro s hle hlt
  exact paced_expressionAlong (s.ahead.length + 1) along s.ahead (by omega) (Nat.le_refl _) s hle
    (Nat.lt_succ_self _)

theorem paced_expression : Steady bound 1 expression expression := by
  intro s hle _
  exact paced_expressionAlong (s.ahead.length + 1) s.ahead s.ahead (Nat.le_refl _) (Nat.le_refl _)
    s hle (Nat.lt_succ_self _)

/-- An expression is read by the rule for expressions, which reads inner ones the same way. -/
theorem expression_eq : expression = assignmentWith expression := by
  funext s
  show expressionAlong s.ahead s = _
  cases hahead : s.ahead with
  | nil =>
    have hnone : Steady 1 1 (expressionAlong []) (assignmentWith expression) :=
      paced_assignmentWith .zero
    exact hnone.eq (Nat.zero_le _) (by simp [hahead])
  | cons t rest =>
    have hinner : Steady (rest.length + 1 + 1) 1 (expressionAlong (t :: rest))
        (assignmentWith expression) := paced_assignmentWith (paced_expression_along rest)
    exact hinner.eq (Nat.zero_le _) (by simp [hahead])

end Expressions

/-! ## 4. Statements -/

section Statements

variable {bound : Nat} {declaration declaration' : Reading (Option Stmt)}
variable {statement statement' : Reading Stmt}

theorem paced_expressionUnless (kind : Kind) :
    Steady bound 0 (expressionUnless kind) (expressionUnless kind) :=
  (Paced.next? kind).andThen fun _ =>
    .ite (.pure none) (paced_expression.slower (Nat.zero_le 1) |>.map some)

theorem paced_initialValue : Steady bound 0 initialValue initialValue :=
  (Paced.skip? .equal).andThen fun _ =>
    .ite (paced_expression.slower (Nat.zero_le 1) |>.map some) (.pure none)

theorem paced_varDeclaration : Steady bound 1 varDeclaration varDeclaration := by
  rw [varDeclaration_eq]
  exact (Paced.require .identifier .variableName).first fun name =>
    paced_initialValue.andThen fun initializer =>
    (Paced.require .semicolon .variableEnd).andThen fun _ => Paced.pure (Stmt.var name initializer)

/-- An expression, the end of the sentence, and what is made of it. -/
theorem paced_sentence (kind : Kind) (wanted : Wanted) (g : Expr → Stmt) :
    Steady bound 1 (do let value ← expression; let _ ← require kind wanted; pure (g value))
      (do let value ← expression; let _ ← require kind wanted; pure (g value)) := by
  exact (paced_expression).first fun value =>
    (Paced.require kind wanted).andThen fun _ => Paced.pure (g value)

theorem paced_expressionStatement : Steady bound 1 expressionStatement expressionStatement :=
  paced_sentence .semicolon .expressionEnd .expression

theorem paced_printStatement : Steady bound 1 printStatement printStatement :=
  paced_sentence .semicolon .printEnd .print

theorem paced_returnStatement (keyword : Token) :
    Steady bound 1 (returnStatement keyword) (returnStatement keyword) :=
  (paced_expressionUnless .semicolon).andThen fun value =>
    (Paced.require .semicolon .returnEnd).andThen fun _ => .pure (Stmt.ret keyword value)

/-- Items up to the end of a body or of the input. An item is read only where a token is left. -/
theorem paced_repeatUntil {α : Type} {test : Reading Bool} {item item' : Reading (List α)}
    (htest : ∀ s, test s = .ok true s ∨ test s = .ok false s ∧ 1 ≤ s.ahead.length)
    (hitem : Paced 1 bound (fun _ => 1) item item') :
    Rounds bound (repeatRound test item) (repeatRound test item') := by
  intro items s hle hlt
  rcases htest s with hdone | ⟨hmore, hlength⟩
  · unfold repeatRound
    rw [bind_of_ok hdone, bind_of_ok hdone]
    exact Paced.pure _ s hle hlt
  · unfold repeatRound
    rw [bind_of_ok hmore, bind_of_ok hmore]
    have hround := hitem.bind (q := Sum.elim (fun _ : List α => 1) fun _ : List α => 0)
      (fun new => Paced.pure (Sum.inl (items ++ new) : List α ⊕ List α)) fun _ r => by
        cases r <;> simp
    exact hround s hlength hlt

theorem atClosingBrace_cases (s : State) :
    atClosingBrace s = .ok true s ∨ atClosingBrace s = .ok false s ∧ 1 ≤ s.ahead.length := by
  have hrun : atClosingBrace s = .ok (closesBody s.ahead) s := rfl
  rw [hrun]
  cases hahead : s.ahead with
  | nil => exact .inl rfl
  | cons t rest => cases closesBody (t :: rest) <;> simp

theorem atEnd_cases (s : State) :
    atEnd s = .ok true s ∨ atEnd s = .ok false s ∧ 1 ≤ s.ahead.length := by
  have hrun : atEnd s = .ok s.ahead.isEmpty s := rfl
  rw [hrun]
  cases s.ahead <;> simp

theorem paced_blockWith (h : Paced 1 bound (fun _ => 1) declaration declaration') :
    Steady bound 1 (blockWith declaration) (blockWith declaration') := by
  rw [blockWith_eq, blockWith_eq]
  exact (Paced.iterate (paced_repeatUntil atClosingBrace_cases (h.map Option.toList)) []).andThen
    fun body => (Paced.require .rightBrace .blockEnd).andThen fun _ => .pure body

theorem paced_parameters : Steady bound 0
    (unlessNext .rightParen (commaSeparated .parameters (require .identifier .parameterName)))
    (unlessNext .rightParen (commaSeparated .parameters (require .identifier .parameterName))) :=
  paced_unlessNext (paced_commaSeparated (Paced.require .identifier .parameterName))

theorem paced_routineWith (h : Paced 1 bound (fun _ => 1) declaration declaration')
    (role : RoutineRole) :
    Steady bound 1 (routineWith declaration role) (routineWith declaration' role) := by
  rw [routineWith_eq, routineWith_eq]
  exact (Paced.require .identifier (.routineName role)).first fun name =>
    (Paced.require .leftParen (.parametersStart role)).andThen fun _ =>
    paced_parameters.andThen fun parameters =>
    (Paced.require .rightParen .parametersEnd).andThen fun _ =>
    (Paced.require .leftBrace (.routineBodyStart role)).andThen fun _ =>
    (paced_blockWith h).andThen fun body => Paced.pure (Routine.mk name parameters body)

theorem paced_methods (h : Paced 1 bound (fun _ => 1) declaration declaration') :
    Rounds bound
      (repeatRound atClosingBrace (List.singleton <$> routineWith declaration .method))
      (repeatRound atClosingBrace (List.singleton <$> routineWith declaration' .method)) := by
  have hmethod := (paced_routineWith h .method).map List.singleton
  exact paced_repeatUntil atClosingBrace_cases
    (hmethod.mono (Nat.zero_le 1) (Nat.le_refl _) fun _ => Nat.le_refl _)

theorem paced_classDeclarationWith (h : Paced 1 bound (fun _ => 1) declaration declaration') :
    Steady bound 1 (classDeclarationWith declaration) (classDeclarationWith declaration') := by
  rw [classDeclarationWith_eq, classDeclarationWith_eq]
  exact (Paced.require .identifier .className).first fun name =>
    (Paced.require .leftBrace .classBodyStart).andThen fun _ =>
    (Paced.iterate (paced_methods h) []).andThen fun methods =>
    (Paced.require .rightBrace .classBodyEnd).andThen fun _ =>
    Paced.pure (Stmt.classDecl name methods)

theorem paced_forInitializer : Steady bound 0 forInitializer forInitializer :=
  (Paced.skip? .semicolon).andThen fun _ => .ite (.pure none) <|
    (Paced.skip? .varWord).andThen fun _ =>
      .ite ((paced_varDeclaration.slower (Nat.zero_le 1)).map some)
        ((paced_expressionStatement.slower (Nat.zero_le 1)).map some)

theorem paced_conditionOrTrue (condition : Option Expr) :
    Steady bound 0 (conditionOrTrue condition) (conditionOrTrue condition) := by
  cases condition with
  | none => exact paced_leaf fun id => .literal id (.bool true)
  | some condition => exact .pure condition

theorem paced_forStatementWith (h : Steady bound 1 statement statement') :
    Steady bound 1 (forStatementWith statement) (forStatementWith statement') := by
  rw [forStatementWith_eq, forStatementWith_eq]
  exact (Paced.require .leftParen .forStart).first fun _ =>
    paced_forInitializer.andThen fun initializer =>
    (paced_expressionUnless .semicolon).andThen fun condition =>
    (Paced.require .semicolon .forConditionEnd).andThen fun _ =>
    (paced_expressionUnless .rightParen).andThen fun increment =>
    (Paced.require .rightParen .forClausesEnd).andThen fun _ => h.andThen fun body =>
    (paced_conditionOrTrue condition).andThen fun condition =>
    Paced.pure (forLoop initializer condition increment body)

theorem paced_ifStatementWith (h : Steady bound 1 statement statement') :
    Steady bound 1 (ifStatementWith statement) (ifStatementWith statement') := by
  have helse := h.slower (Nat.zero_le 1)
  exact (Paced.require .leftParen .ifStart).first fun _ =>
    paced_expression.andThen fun condition =>
    (Paced.require .rightParen .ifConditionEnd).andThen fun _ => h.andThen fun thenBranch =>
    (Paced.skip? .elseWord).andThen fun more =>
    Paced.ite (c := more = true) (helse.andThen fun elseBranch =>
        Paced.pure (Stmt.ifElse condition thenBranch elseBranch))
      (Paced.pure (Stmt.ifThen condition thenBranch))

theorem paced_whileStatementWith (h : Steady bound 1 statement statement') :
    Steady bound 1 (whileStatementWith statement) (whileStatementWith statement') := by
  exact (Paced.require .leftParen .whileStart).first fun _ =>
    paced_expression.andThen fun condition =>
    (Paced.require .rightParen .whileConditionEnd).andThen fun _ => h.andThen fun body =>
    Paced.pure (Stmt.loop condition body)

theorem paced_statementWith (hdeclaration : Paced 1 bound (fun _ => 1) declaration declaration')
    (hstatement : Steady bound 1 statement statement') :
    Steady (bound + 1) 1 (statementWith declaration statement)
      (statementWith declaration' statement') := by
  refine .acceptThen (fun _ => Nat.le_refl _) (fun t _ => ?_) paced_expressionStatement
  dsimp only
  split
  · exact (paced_forStatementWith hstatement).slower (Nat.zero_le 1)
  · exact (paced_ifStatementWith hstatement).slower (Nat.zero_le 1)
  · exact paced_printStatement.slower (Nat.zero_le 1)
  · exact (paced_returnStatement t).slower (Nat.zero_le 1)
  · exact (paced_whileStatementWith hstatement).slower (Nat.zero_le 1)
  · exact ((paced_blockWith hdeclaration).slower (Nat.zero_le 1)).map Stmt.block

/-- Recovery skips at least one token if one is left. -/
theorem length_resume (ts : List Token) : (resume ts).length ≤ ts.length - 1 := by
  induction ts with
  | nil => simp [resume]
  | cons t ts ih =>
    rw [resume]
    split
    · simp
    · rw [List.length_cons]
      omega

/-- A declaration takes a token whether it
has a fault or not. -/
theorem paced_recovering {low k : Nat} {x x' : Reading Stmt} (h : Steady bound 1 x x') (hk : k ≤ 1)
    (hlow : k ≤ low) : Paced low bound (fun _ => k) (recovering x) (recovering x') := by
  intro s hle hlt
  have hs := h s (Nat.zero_le _) hlt
  unfold recovering
  cases hx : x s with
  | ok a s' =>
    rw [hx] at hs
    obtain ⟨hx', hforward, hlength⟩ := hs
    rw [hx']
    have hpace : s'.ahead.length + k ≤ s.ahead.length := Nat.le_trans (by simpa using hk) hlength
    exact ⟨rfl, hforward, hpace⟩
  | error fault s' =>
    rw [hx] at hs
    obtain ⟨hx', hforward, hfault⟩ := hs
    have hskip := length_resume s'.ahead
    have hlength := hforward.length_le
    have hpace : (resume s'.ahead).length + k ≤ s.ahead.length := by omega
    rw [hx']
    refine ⟨rfl, hforward.trans ⟨rfl, resume_suffix s'.ahead, [fault], rfl, ?_⟩, hpace⟩
    intro fault' hfault'
    rw [List.mem_singleton.mp hfault']
    exact hfault

theorem paced_declarationWith {low k : Nat} (hk : k ≤ 1) (hlow : k ≤ low)
    (hdeclaration : Paced 1 bound (fun _ => 1) declaration declaration')
    (hstatement : Steady (bound + 1) 1 statement statement') :
    Paced low (bound + 1) (fun _ => k) (declarationWith declaration statement)
      (declarationWith declaration' statement') := by
  refine paced_recovering (.acceptThen (fun _ => Nat.le_refl _) (fun t _ => ?_) hstatement) hk hlow
  dsimp only
  split
  · exact (paced_classDeclarationWith hdeclaration).slower (Nat.zero_le 1)
  · exact ((paced_routineWith hdeclaration .function).slower (Nat.zero_le 1)).map Stmt.function
  · exact paced_varDeclaration.slower (Nat.zero_le 1)

/-- What a declaration along some tokens calls for the declarations inside it. -/
def innerDeclaration : List Token → Reading (Option Stmt)
  | [] => recovering (fail .tooDeep)
  | _ :: along => declarationAlong along

/-- What a statement along some tokens calls for the statements inside it. -/
def innerStatement : List Token → Reading Stmt
  | [] => fail .tooDeep
  | _ :: along => statementAlong along

theorem statementAlong_with (along : List Token) :
    statementAlong along = statementWith (innerDeclaration along) (innerStatement along) := by
  cases along with
  | nil | cons => rw [statementAlong]; rfl

theorem declarationAlong_with (along : List Token) : declarationAlong along =
    declarationWith (innerDeclaration along) (statementAlong along) := by
  cases along with
  | nil | cons => rw [declarationAlong, statementAlong]; rfl

/-- Sentences are read alike along any lists that are as long as the tokens ahead. -/
theorem paced_sentencesAlong (bound : Nat) (along along' : List Token)
    (hle : bound ≤ along.length + 1) (hle' : bound ≤ along'.length + 1) :
    Steady bound 1 (statementAlong along) (statementAlong along') ∧
      ∀ low k, k ≤ 1 → k ≤ low →
        Paced low bound (fun _ => k) (declarationAlong along) (declarationAlong along') := by
  induction bound generalizing along along' with
  | zero => exact ⟨.zero, fun _ _ _ _ => .zero⟩
  | succ bound ih =>
    have hinner : Paced 1 bound (fun _ => 1) (innerDeclaration along) (innerDeclaration along') ∧
        Steady bound 1 (innerStatement along) (innerStatement along') := by
      cases along with
      | nil =>
        obtain rfl : bound = 0 := by simpa using hle
        exact ⟨.zero, .zero⟩
      | cons t along =>
        cases along' with
        | nil =>
          obtain rfl : bound = 0 := by simpa using hle'
          exact ⟨.zero, .zero⟩
        | cons t' along' =>
          have h := ih along along' (by simpa using hle) (by simpa using hle')
          exact ⟨h.2 1 1 (Nat.le_refl _) (Nat.le_refl _), h.1⟩
    have hstatement : Steady (bound + 1) 1 (statementAlong along) (statementAlong along') := by
      rw [statementAlong_with, statementAlong_with]
      exact paced_statementWith hinner.1 hinner.2
    refine ⟨hstatement, fun low k hk hlow => ?_⟩
    rw [declarationAlong_with, declarationAlong_with]
    exact paced_declarationWith hk hlow hinner.1 hstatement

end Statements

/-- A statement of any kind, with as many inside one another as there are tokens ahead. -/
def statement : Reading Stmt := do
  statementAlong (← get).ahead

theorem paced_declaration_along (along : List Token) {low k : Nat} (hk : k ≤ 1) (hlow : k ≤ low) :
    Paced low (along.length + 1) (fun _ => k) (declarationAlong along) declaration := by
  intro s hle hlt
  have hboth := paced_sentencesAlong (s.ahead.length + 1) along s.ahead (by omega) (Nat.le_refl _)
  exact hboth.2 low k hk hlow s hle (Nat.lt_succ_self _)

theorem paced_statement_along (along : List Token) :
    Steady (along.length + 1) 1 (statementAlong along) statement := by
  intro s hle hlt
  have hboth := paced_sentencesAlong (s.ahead.length + 1) along s.ahead (by omega) (Nat.le_refl _)
  exact hboth.1 s hle (Nat.lt_succ_self _)

/-- A declaration takes a token if there is one, whether it has a fault or not. -/
theorem paced_declaration {low bound k : Nat} (hk : k ≤ 1) (hlow : k ≤ low) :
    Paced low bound (fun _ => k) declaration declaration :=
  fun s hle _ => paced_declaration_along s.ahead hk hlow s hle (Nat.lt_succ_self _)

theorem paced_statement {bound : Nat} : Steady bound 1 statement statement :=
  fun s hle _ => paced_statement_along s.ahead s hle (Nat.lt_succ_self _)

theorem paced_inner (along : List Token) :
    Paced 1 along.length (fun _ => 1) (innerDeclaration along) declaration ∧
      Steady along.length 1 (innerStatement along) statement := by
  cases along with
  | nil => exact ⟨.zero, .zero⟩
  | cons t along =>
    exact ⟨paced_declaration_along along (Nat.le_refl _) (Nat.le_refl _),
      paced_statement_along along⟩

/-- A statement is read by the rule for statements, which reads inner sentences the same way. -/
theorem statement_eq : statement = statementWith declaration statement := by
  funext s
  obtain ⟨hdeclaration, hstatement⟩ := paced_inner s.ahead
  show statementAlong s.ahead s = _
  rw [statementAlong_with]
  exact (paced_statementWith hdeclaration hstatement).eq (Nat.zero_le _) (Nat.lt_succ_self _)

theorem declaration_eq : declaration = declarationWith declaration statement := by
  funext s
  obtain ⟨hdeclaration, -⟩ := paced_inner s.ahead
  show declarationAlong s.ahead s = _
  rw [declarationAlong_with]
  exact (paced_declarationWith (Nat.zero_le 1) (Nat.zero_le 0) hdeclaration
    (paced_statement_along s.ahead)).eq (Nat.zero_le _) (Nat.lt_succ_self _)

/-! ## 5. Scripts -/

theorem paced_scriptRound {bound : Nat} : Rounds bound
    (repeatRound atEnd (Option.toList <$> declaration))
    (repeatRound atEnd (Option.toList <$> declaration)) :=
  paced_repeatUntil atEnd_cases
    ((paced_declaration (Nat.le_refl 1) (Nat.le_refl 1)).map Option.toList)

/-- A sentence with a fault is left out, so there is a result all the same. -/
theorem exists_recovering {α : Type} (x : Reading α) (s : State) :
    ∃ o s', recovering x s = .ok o s' := by
  unfold recovering
  cases x s with
  | ok a s' => exact ⟨_, _, rfl⟩
  | error fault s' => exact ⟨_, _, rfl⟩

/-- A declaration that begins at a token has a result and goes on with fewer tokens. -/
theorem declaration_takes {s : State} (h : 1 ≤ s.ahead.length) : ∃ o s', declaration s = .ok o s' ∧
    s.Forward s' ∧ s'.ahead.length < s.ahead.length := by
  have hresult : ∃ o s', declaration s = .ok o s' := by
    rw [declaration_eq]
    exact exists_recovering _ s
  obtain ⟨o, s', hrun⟩ := hresult
  have hpace := paced_declaration (Nat.le_refl 1) (Nat.le_refl 1) s h (Nat.lt_succ_self _)
  rw [hrun] at hpace
  obtain ⟨-, hforward, hlength⟩ := hpace
  exact ⟨o, s', hrun, hforward, hlength⟩

/-- The declarations of a script are read to the end. -/
theorem scriptRounds_end (items : List Stmt) (s : State) :
    ∃ statements s', iterate items (repeatRound atEnd (Option.toList <$> declaration)) s =
      .ok statements s' ∧ s.Forward s' ∧ s'.ahead = [] := by
  have hatEnd : atEnd s = .ok s.ahead.isEmpty s := rfl
  rw [iterate_eq fun _ => paced_scriptRound]
  cases hahead : s.ahead with
  | nil =>
    have hround : repeatRound atEnd (Option.toList <$> declaration) items s =
        .ok (.inr items) s := by
      unfold repeatRound
      rw [bind_of_ok hatEnd, hahead]
      rfl
    rw [bind_of_ok hround]
    exact ⟨items, s, rfl, .refl s, hahead⟩
  | cons t rest =>
    obtain ⟨o, s₁, hdeclaration, hforward, hfewer⟩ := declaration_takes (s := s) (by simp [hahead])
    have hround : repeatRound atEnd (Option.toList <$> declaration) items s =
        .ok (.inl (items ++ o.toList)) s₁ := by
      unfold repeatRound
      rw [bind_of_ok hatEnd, hahead, ← bind_pure_comp]
      simp only [List.isEmpty_cons, Bool.false_eq_true, if_false, bind_assoc]
      rw [bind_of_ok hdeclaration]
      rfl
    rw [bind_of_ok hround]
    obtain ⟨statements, s', hrun, hforward', hempty⟩ := scriptRounds_end (items ++ o.toList) s₁
    exact ⟨statements, s', hrun, hforward.trans hforward', hempty⟩
termination_by s.ahead.length

theorem script_ends (s : State) : ∃ statements s', script s = .ok statements s' ∧ s.Forward s' ∧
    s'.ahead = [] := by
  rw [script_eq]
  exact scriptRounds_end [] s

end Grammar

end ScriptLang
