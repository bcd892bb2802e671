/-
ScriptLang.Proofs.Grammar.Alongside — one sentence in two sources.

Two sources have some tokens up to a semicolon in common. They differ in what
comes after the semicolon, in the faults that were recorded before, and in the
identities that were handed out before (`Setting`).

Readings of the two go alongside each other if both give a result or both fail
with the same fault, and then stand at the same token (`Alongside`). The second
result is the first one with later identities. No rule for expressions takes a
semicolon, so an expression is read in both or in none (`echoes_expression`),
whatever faults it has.

The knot of the grammar is tied along the tokens ahead, of which the two
sources have different numbers. What counts is the number of tokens before the
semicolon (`Within`): a rule calls its argument only when there are fewer.
-/
import ScriptLang.Proofs.Grammar.Completeness
import ScriptLang.Proofs.Grammar.Shift

namespace ScriptLang.Grammar

/-! ## 1. Runs of readings -/

section Runs

variable {α β : Type} {s s₁ : State}

theorem bind_of_ok {x : Reading α} {f : α → Reading β} {a : α} (h : x s = .ok a s₁) :
    (x >>= f) s = f a s₁ := by
  show EStateM.bind x f s = _
  unfold EStateM.bind
  rw [h]

/-- A token that comes next is taken or not. -/
theorem acceptThen_eq {kinds : List Kind} {f : Option Token → Reading α} {t : Token}
    {rest : List Token} (hahead : s.ahead = t :: rest) :
    (accept? kinds >>= f) s =
      if t.kind ∈ kinds then f (some t) { s with ahead := rest } else f none s := by
  have haccept : accept? kinds s =
      if t.kind ∈ kinds then .ok (some t) { s with ahead := rest } else .ok none s := by
    unfold accept?
    rw [hahead]
  by_cases hkind : t.kind ∈ kinds
  · rw [if_pos hkind] at haccept ⊢
    exact bind_of_ok haccept
  · rw [if_neg hkind] at haccept ⊢
    exact bind_of_ok haccept

/-- What a repetition does if a round asks for another one. -/
def nextAlong (step : α → Reading (α ⊕ β)) : List Token → α → Reading β
  | [], _ => fail .tooDeep
  | _ :: rest, a => iterateAlong step rest a

theorem iterateAlong_eq (step : α → Reading (α ⊕ β)) (ts : List Token) (a : α) :
    iterateAlong step ts a = step a >>= Sum.elim (nextAlong step ts) pure := by
  cases ts with
  | nil | cons t ts =>
    rw [iterateAlong]
    congr 1
    funext r
    cases r <;> rfl

end Runs

/-! ## 2. Two sources -/

/-- The words that begin a statement or declaration. -/
def statementStarts : List Kind :=
  [.classWord, .funWord, .varWord, .forWord, .ifWord, .whileWord, .printWord, .returnWord]

/-- The kinds that end a sentence, open or close a body, or begin a statement. -/
def boundaryKinds : List Kind := [.semicolon, .leftBrace, .rightBrace] ++ statementStarts

/-- A semicolon in two sources. -/
structure Setting where
  semicolon : Token
  /-- What comes after the semicolon, in the first source and in the second. -/
  after : List Token
  after' : List Token
  /-- The faults recorded before the sentence. -/
  faults : List Fault
  faults' : List Fault
  /-- By how much the identities of the second source are later. -/
  ids : Nat
  kind : semicolon.kind = .semicolon
  /-- What comes after does not go on with an `if` before the semicolon. -/
  apart : Stops [.elseWord] after
  apart' : Stops [.elseWord] after'

namespace Setting

variable (c : Setting)

/-- From a tree of the first source to the tree of the second. -/
abbrev later (e : Expr) : Expr := e.relabel (.renumber c.ids)

/-- The states of two readings with the given tokens ahead, when the same faults were recorded
and the same identities handed out since the sentence began. -/
structure At (rest rest' : List Token) (s s' : State) : Prop where
  ahead : s.ahead = rest
  ahead' : s'.ahead = rest'
  faults : ∃ new, s.faults = c.faults ++ new ∧ s'.faults = c.faults' ++ new
  nextId : s'.nextId = c.ids + s.nextId

/-- The given tokens are left before the semicolon. -/
abbrev Facing (q : List Token) : State → State → Prop :=
  c.At (q ++ c.semicolon :: c.after) (q ++ c.semicolon :: c.after')

/-- The semicolon has been taken. -/
abbrev Past : State → State → Prop := c.At c.after c.after'

/-- Fewer than `bound` tokens, none of them a boundary, are left before the semicolon. -/
def Within (bound : Nat) (s s' : State) : Prop :=
  ∃ q, q.length < bound ∧ (∀ t ∈ q, t.kind ∉ boundaryKinds) ∧ c.Facing q s s'

/-- Both readings have a result, or both have the same fault before the semicolon. -/
inductive Alike {α : Type} (g : α → α) (post : α → State → State → Prop) :
    EStateM.Result Fault State α → EStateM.Result Fault State α → Prop where
  | ok {a s s'} : post a s s' → Alike g post (.ok a s) (.ok (g a) s')
  | error {fault bound s s'} : c.Within bound s s' → Alike g post (.error fault s) (.error fault s')

/-- From states as `pre` says, two readings end alike: with results that `g` relates, and in states
as `post` says of the first result. -/
def Alongside {α : Type} (pre : State → State → Prop) (x x' : Reading α) (g : α → α)
    (post : α → State → State → Prop) : Prop :=
  ∀ s s', pre s s' → c.Alike g post (x s) (x' s')

variable {c} {s s' : State} {j k : Nat}

theorem At.moved {rest rest' : List Token} (h : c.At rest rest' s s') (later later' : List Token) :
    c.At later later' { s with ahead := later } { s' with ahead := later' } :=
  ⟨rfl, rfl, h.faults, h.nextId⟩

/-- One more fault in both. -/
theorem At.snoc {rest rest' : List Token} (h : c.At rest rest' s s') (fault : Fault) :
    c.At rest rest' { s with faults := s.faults ++ [fault] }
      { s' with faults := s'.faults ++ [fault] } := by
  obtain ⟨new, hnew, hnew'⟩ := h.faults
  exact ⟨h.ahead, h.ahead', ⟨new ++ [fault], by rw [hnew, List.append_assoc],
    by rw [hnew', List.append_assoc]⟩, h.nextId⟩

theorem Within.mono (h : c.Within j s s') (hle : j ≤ k) : c.Within k s s' := by
  obtain ⟨q, hlength, hplain, hat⟩ := h
  exact ⟨q, by omega, hplain, hat⟩

/-- The same token comes next in both: one that is no boundary, or the semicolon. -/
theorem Within.next (h : c.Within j s s') : ∃ t rest rest', s.ahead = t :: rest ∧
    s'.ahead = t :: rest' ∧
    (t.kind ∉ boundaryKinds ∧
        c.Within (j - 1) { s with ahead := rest } { s' with ahead := rest' } ∨
      t.kind = .semicolon ∧ c.Past { s with ahead := rest } { s' with ahead := rest' }) := by
  obtain ⟨q, hlength, hplain, hat⟩ := h
  cases q with
  | nil => exact ⟨_, _, _, hat.ahead, hat.ahead', .inr ⟨c.kind, hat.moved _ _⟩⟩
  | cons t q =>
    rw [List.length_cons] at hlength
    obtain ⟨ht, hq⟩ := List.forall_mem_cons.mp hplain
    exact ⟨t, _, _, hat.ahead, hat.ahead', .inl ⟨ht, q, by omega, hq, hat.moved _ _⟩⟩

/-! ## 3. Readings alongside each other -/

namespace Alongside

variable {α β : Type} {pre : State → State → Prop} {x x' : Reading α} {g : α → α} {h : β → β}
variable {mid : α → State → State → Prop} {post : β → State → State → Prop}
variable {f f' : α → Reading β}

theorem mono {mid' : α → State → State → Prop} (hx : c.Alongside pre x x' g mid)
    (hpost : ∀ a s s', mid a s s' → mid' a s s') : c.Alongside pre x x' g mid' := by
  intro s s' hpre
  have halike := hx s s' hpre
  generalize x s = r, x' s' = r' at halike ⊢
  cases halike with
  | ok hmid => exact .ok (hpost _ _ _ hmid)
  | error hwithin => exact .error hwithin

protected theorem bind (hx : c.Alongside pre x x' g mid)
    (hf : ∀ a, c.Alongside (mid a) (f a) (f' (g a)) h post) :
    c.Alongside pre (x >>= f) (x' >>= f') h post := by
  intro s s' hpre
  show c.Alike h post (EStateM.bind x f s) (EStateM.bind x' f' s')
  unfold EStateM.bind
  have halike := hx s s' hpre
  generalize x s = r, x' s' = r' at halike ⊢
  cases halike with
  | ok hmid => exact hf _ _ _ hmid
  | error hwithin => exact .error hwithin

theorem pure {a : α} (hpost : ∀ s s', pre s s' → mid a s s') :
    c.Alongside pre (Pure.pure a) (Pure.pure (g a)) g mid :=
  fun s s' hpre => .ok (hpost s s' hpre)

theorem fail (cause : GrammarCause) :
    c.Alongside (c.Within j) (Grammar.fail cause) (Grammar.fail cause) g mid := by
  intro s s' hwithin
  obtain ⟨t, rest, rest', hahead, hahead', -⟩ := hwithin.next
  show c.Alike g mid (.error (.grammar (s.ahead.headD s.stop).site cause) s)
    (.error (.grammar (s'.ahead.headD s'.stop).site cause) s')
  rw [hahead, hahead']
  exact .error hwithin

theorem fresh : c.Alongside (c.Within j) Grammar.fresh Grammar.fresh (c.ids + ·)
    fun _ => c.Within j := by
  rintro s s' ⟨q, hlength, hplain, hat⟩
  have hresult : Grammar.fresh s' = .ok (c.ids + s.nextId)
      { s' with nextId := s'.nextId + 1 } := by rw [← hat.nextId]; rfl
  rw [hresult]
  exact .ok ⟨q, hlength, hplain, hat.ahead, hat.ahead', hat.faults,
    congrArg (· + 1) hat.nextId⟩

/-- A reading that begins with an optional token, not a semicolon, goes on with fewer tokens
before the semicolon if the token is there. -/
theorem acceptThen {kinds : List Kind} {f f' : Option Token → Reading α}
    (hsemicolon : .semicolon ∉ kinds)
    (hsome : ∀ t, t.kind ∈ kinds → c.Alongside (c.Within j) (f (some t)) (f' (some t)) g mid)
    (hnone : c.Alongside (c.Within (j + 1)) (f none) (f' none) g mid) :
    c.Alongside (c.Within (j + 1)) (Grammar.accept? kinds >>= f) (Grammar.accept? kinds >>= f')
      g mid := by
  intro s s' hwithin
  obtain ⟨t, rest, rest', hahead, hahead', hnext⟩ := hwithin.next
  rw [acceptThen_eq hahead, acceptThen_eq hahead']
  by_cases hkind : t.kind ∈ kinds
  · rw [if_pos hkind, if_pos hkind]
    rcases hnext with ⟨-, hfewer⟩ | ⟨ht, -⟩
    · exact hsome t hkind _ _ hfewer
    · exact absurd (ht ▸ hkind) hsemicolon
  · rw [if_neg hkind, if_neg hkind]
    exact hnone s s' hwithin

/-- Whether a token is there, which is then taken. -/
theorem skip? {kind : Kind} (hkind : kind ≠ .semicolon) :
    c.Alongside (c.Within (j + 1)) (Grammar.skip? kind) (Grammar.skip? kind) id
      fun taken => c.Within (if taken then j else j + 1) :=
  acceptThen (by simpa using hkind.symm) (fun _ _ => pure fun _ _ h => h) (pure fun _ _ h => h)

end Alongside

/-- Whatever is left before the semicolon, up to a bound, two readings go alongside each other and
not beyond the semicolon. -/
def Echoes (c : Setting) {α : Type} (bound : Nat) (g : α → α) (x x' : Reading α) : Prop :=
  ∀ j, j ≤ bound → c.Alongside (c.Within j) x x' g fun _ => c.Within j

/-- How a round of a repetition ends: if there is another one, with fewer tokens before the
semicolon. -/
def Round (c : Setting) {α β : Type} (j : Nat) : α ⊕ β → State → State → Prop
  | .inl _ => c.Within j
  | .inr _ => c.Within (j + 1)

/-- There are never fewer than no tokens. -/
theorem Alongside.of_zero {α : Type} {x x' : Reading α} {g : α → α}
    {post : α → State → State → Prop} : c.Alongside (c.Within 0) x x' g post := by
  rintro s s' ⟨q, hlength, -⟩
  exact absurd hlength (Nat.not_lt_zero _)

namespace Echoes

variable {α β : Type} {x x' : Reading α} {g : α → α} {h : β → β} {f f' : α → Reading β}

theorem zero : c.Echoes 0 g x x' := by
  intro j hj
  obtain rfl := Nat.le_zero.mp hj
  exact .of_zero

/-- It is enough to look at bounds above zero. -/
theorem of_succ (hx : ∀ j, j < k →
    c.Alongside (c.Within (j + 1)) x x' g fun _ => c.Within (j + 1)) : c.Echoes k g x x'
  | 0, _ => .of_zero
  | j + 1, hj => hx j hj

theorem le (hx : c.Echoes k g x x') (hle : j ≤ k) : c.Echoes j g x x' :=
  fun i hi => hx i (by omega)

protected theorem bind (hx : c.Echoes k g x x') (hf : ∀ a, c.Echoes k h (f a) (f' (g a))) :
    c.Echoes k h (x >>= f) (x' >>= f') :=
  fun j hj => (hx j hj).bind fun a => hf a j hj

theorem pure (a : α) : c.Echoes k g (Pure.pure a) (Pure.pure (g a)) :=
  fun _ _ => .pure fun _ _ hs => hs

theorem fail (cause : GrammarCause) : c.Echoes k g (Grammar.fail cause) (Grammar.fail cause) :=
  fun _ _ => .fail cause

theorem fresh : c.Echoes k (c.ids + ·) Grammar.fresh Grammar.fresh :=
  fun _ _ => .fresh

theorem acceptThen {kinds : List Kind} {f f' : Option Token → Reading α}
    (hsemicolon : .semicolon ∉ kinds)
    (hsome : ∀ t, t.kind ∈ kinds → c.Echoes k g (f (some t)) (f' (some t)))
    (hnone : c.Echoes (k + 1) g (f none) (f' none)) :
    c.Echoes (k + 1) g (Grammar.accept? kinds >>= f) (Grammar.accept? kinds >>= f') := by
  refine of_succ fun j hj => .acceptThen hsemicolon (fun t ht => ?_) (hnone (j + 1) hj)
  exact (hsome t ht j (by omega)).mono fun _ _ _ hwithin => hwithin.mono (Nat.le_succ j)

theorem require {kind : Kind} (hkind : kind ≠ .semicolon) (wanted : Wanted) :
    c.Echoes k id (Grammar.require kind wanted) (Grammar.require kind wanted) :=
  Echoes.le (acceptThen (by simpa using hkind.symm) (fun t _ => pure t) (fail _)) (Nat.le_succ k)

theorem skip? {kind : Kind} (hkind : kind ≠ .semicolon) :
    c.Echoes k id (Grammar.skip? kind) (Grammar.skip? kind) := by
  refine of_succ fun j _ => (Alongside.skip? hkind).mono fun taken _ _ hwithin => ?_
  exact hwithin.mono (by split <;> omega)

theorem peek : c.Echoes k id Grammar.peek Grammar.peek := by
  intro j _ s s' hwithin
  obtain ⟨t, rest, rest', hahead, hahead', -⟩ := hwithin.next
  show c.Alike id _ (.ok (s.ahead.headD s.stop) s) (.ok (s'.ahead.headD s'.stop) s')
  rw [hahead, hahead']
  exact .ok hwithin

theorem record (token : Token) (cause : GrammarCause) :
    c.Echoes k id (Grammar.record token cause) (Grammar.record token cause) := by
  rintro j - s s' ⟨q, hlength, hplain, hat⟩
  exact .ok ⟨q, hlength, hplain, hat.snoc _⟩

theorem next? (kind : Kind) : c.Echoes k id (Grammar.next? kind) (Grammar.next? kind) := by
  intro j _ s s' hwithin
  obtain ⟨t, rest, rest', hahead, hahead', -⟩ := hwithin.next
  show c.Alike id _ (.ok (s.ahead.head?.any (·.kind = kind)) s)
    (.ok (s'.ahead.head?.any (·.kind = kind)) s')
  rw [hahead, hahead']
  exact .ok hwithin

theorem unlessNext {kind : Kind} {x x' : Reading (List α)} (hx : c.Echoes k (List.map g) x x') :
    c.Echoes k (List.map g) (Grammar.unlessNext kind x) (Grammar.unlessNext kind x') := by
  refine (next? kind).bind fun b => ?_
  cases b with
  | true => exact pure []
  | false => exact hx

/-- A reading that is told how many tokens are ahead need only be told that there are enough. -/
theorem along (read read' : List Token → Reading α)
    (hread : ∀ j, j ≤ k → ∀ ts ts' : List Token, j ≤ ts.length + 1 → j ≤ ts'.length + 1 →
      c.Alongside (c.Within j) (read ts) (read' ts') g fun _ => c.Within j) :
    c.Echoes k g (fun s => read s.ahead s) (fun s => read' s.ahead s) := by
  rintro j hj s s' ⟨q, hlength, hplain, hat⟩
  have hahead := congrArg List.length hat.ahead
  have hahead' := congrArg List.length hat.ahead'
  rw [List.length_append, List.length_cons] at hahead hahead'
  have hq := hread (q.length + 1) (by omega) s.ahead s'.ahead (by omega) (by omega)
  exact hq.mono (fun _ _ _ hwithin => hwithin.mono hlength) s s' ⟨q, Nat.lt_succ_self _, hplain, hat⟩

theorem iterate {step step' : α → Reading (α ⊕ β)} (hstep : ∀ j, j < k → ∀ a,
      c.Alongside (c.Within (j + 1)) (step a) (step' (g a)) (Sum.map g h) (c.Round j)) (a : α) :
    c.Echoes k h (Grammar.iterate a step) (Grammar.iterate (g a) step') := by
  refine along (fun ts => Grammar.iterateAlong step ts a)
    (fun ts => Grammar.iterateAlong step' ts (g a)) fun j => ?_
  -- one round for each token before the semicolon
  induction j generalizing a with
  | zero => exact fun _ _ _ _ _ => .of_zero
  | succ j ih =>
    intro hj ts ts' hts hts'
    rw [iterateAlong_eq, iterateAlong_eq]
    refine (hstep j hj a).bind fun r => ?_
    cases r with
    | inr b => exact .pure fun _ _ hs => hs
    | inl a =>
      cases ts with
      | nil =>
        obtain rfl : j = 0 := by simpa using hts
        exact .of_zero
      | cons t ts =>
        cases ts' with
        | nil =>
          obtain rfl : j = 0 := by simpa using hts'
          exact .of_zero
        | cons t' ts' =>
          have hrest := ih a (by omega) ts ts' (by simpa using hts) (by simpa using hts')
          exact hrest.mono fun _ _ _ hwithin => hwithin.mono (Nat.le_succ j)

end Echoes

/-! ## 4. Expressions -/

section Expressions

variable {self self' : Reading Expr}

/-- A tree gets its identity last. -/
theorem echoes_node {e e' : Nat → Expr} (he : ∀ id, c.later (e id) = e' (c.ids + id)) :
    c.Echoes k c.later (do pure (e (← fresh))) (do pure (e' (← fresh))) := by
  refine Echoes.fresh.bind fun id => ?_
  rw [← he]
  exact .pure _

theorem echoes_primaryWith (hself : c.Echoes k c.later self self') :
    c.Echoes (k + 1) c.later (primaryWith self) (primaryWith self') := by
  refine Echoes.acceptThen (by decide) (fun t ht => ?_) (.fail _)
  simp only [List.mem_cons, List.not_mem_nil, or_false] at ht
  rcases ht with hkind | hkind | hkind | hkind | hkind | hkind | hkind | hkind
  all_goals simp only [hkind]
  iterate 7 exact echoes_node fun _ => rfl
  refine hself.bind fun inner => (Echoes.require (by decide) .groupEnd).bind fun _ => ?_
  exact echoes_node fun _ => rfl

/-- Room for one more item depends on the number of items only. -/
theorem echoes_checkRoom {α : Type} {list : BoundedList} {items items' : List α}
    (hlength : items'.length = items.length) :
    c.Echoes k id (checkRoom list items) (checkRoom list items') := by
  unfold checkRoom
  rw [hlength]
  split
  · exact Echoes.peek.bind fun t => .record t _
  · exact .pure ()

theorem echoes_commaSeparated {α : Type} {list : BoundedList} {item item' : Reading α} {g : α → α}
    (hitem : c.Echoes k g item item') :
    c.Echoes k (List.map g) (commaSeparated list item) (commaSeparated list item') := by
  rw [commaSeparated_eq, commaSeparated_eq]
  refine Echoes.iterate (g := List.map g) (fun j hj items => ?_) []
  refine (echoes_checkRoom (by simp) (j + 1) (Nat.le_refl _)).bind fun _ =>
    (hitem (j + 1) hj).bind fun a => (Alongside.skip? (by decide)).bind fun more => ?_
  have hsnoc : items.map g ++ [g a] = (items ++ [a]).map g := by simp
  rw [hsnoc]
  cases more with
  | true => exact Alongside.pure (a := Sum.inl (items ++ [a])) fun _ _ hs => hs
  | false => exact Alongside.pure (a := Sum.inr (items ++ [a])) fun _ _ hs => hs

theorem echoes_finishCallWith (hself : c.Echoes k c.later self self') (callee : Expr) :
    c.Echoes k c.later (finishCallWith self callee) (finishCallWith self' (c.later callee)) := by
  rw [finishCallWith_eq, finishCallWith_eq]
  refine (Echoes.unlessNext (echoes_commaSeparated hself)).bind fun arguments =>
    (Echoes.require (by decide) .argumentsEnd).bind fun paren => echoes_node fun id => ?_
  rw [later, Expr.relabel, Expr.relabelAll_eq_map]
  rfl

theorem echoes_callWith (hself : c.Echoes k c.later self self') :
    c.Echoes (k + 1) c.later (callWith self) (callWith self') := by
  rw [callWith_eq, callWith_eq]
  refine (echoes_primaryWith hself).bind fun callee =>
    Echoes.iterate (g := c.later) (fun j hj callee => ?_) callee
  refine Alongside.acceptThen (by decide) (fun t _ => ?_) (.pure fun _ _ hs => hs)
  dsimp only
  split
  · refine (echoes_finishCallWith hself callee j (by omega)).bind fun e => ?_
    exact Alongside.pure (a := Sum.inl e) fun _ _ hs => hs
  · refine (Echoes.require (by decide) .propertyName j (Nat.le_refl j)).bind fun name =>
      Alongside.fresh.bind fun id => ?_
    exact Alongside.pure (a := Sum.inl (Expr.property id callee name)) fun _ _ hs => hs

/-- No unary operator is beyond the semicolon. -/
theorem echoes_unaryOperators : c.Echoes k id unaryOperators unaryOperators := by
  rintro j - s s' ⟨q, hlength, hplain, hat⟩
  let isOperator (t : Token) : Bool := t.kind ∈ [.bang, .minus]
  have hsplit : ∀ rest, (q ++ c.semicolon :: rest).takeWhile isOperator = q.takeWhile isOperator ∧
      (q ++ c.semicolon :: rest).dropWhile isOperator
        = q.dropWhile isOperator ++ c.semicolon :: rest := by
    intro rest
    have hend : isOperator c.semicolon = false := by simp [isOperator, c.kind]
    clear hlength hplain hat
    induction q with
    | nil => simp [hend]
    | cons t q ih => cases ht : isOperator t <;> simp [ht, ih]
  obtain ⟨htake, hdrop⟩ := hsplit c.after
  obtain ⟨htake', hdrop'⟩ := hsplit c.after'
  have hsub := List.dropWhile_suffix isOperator (l := q)
  show c.Alike id _
    (.ok (s.ahead.takeWhile isOperator) { s with ahead := s.ahead.dropWhile isOperator })
    (.ok (s'.ahead.takeWhile isOperator) { s' with ahead := s'.ahead.dropWhile isOperator })
  rw [hat.ahead, hat.ahead', htake, htake', hdrop, hdrop']
  exact .ok ⟨q.dropWhile isOperator, Nat.lt_of_le_of_lt hsub.length_le hlength,
    fun t ht => hplain t (hsub.subset ht), hat.moved _ _⟩

theorem echoes_wrapOperators (operand : Expr) (ops : List Token) :
    c.Echoes k c.later
      (ops.foldrM (fun op operand => do pure (.unary (← fresh) op operand)) operand)
      (ops.foldrM (fun op operand => do pure (.unary (← fresh) op operand)) (c.later operand)) := by
  induction ops with
  | nil => exact .pure operand
  | cons op ops ih =>
    rw [List.foldrM_cons, List.foldrM_cons]
    exact ih.bind fun inner => echoes_node fun _ => rfl

theorem echoes_unaryWith (hself : c.Echoes k c.later self self') :
    c.Echoes (k + 1) c.later (unaryWith self) (unaryWith self') :=
  echoes_unaryOperators.bind fun ops =>
    (echoes_callWith hself).bind fun operand => echoes_wrapOperators operand ops

theorem echoes_leftJoined {level : Level} {operand operand' : Reading Expr}
    (hlevel : Phrase.JoinsLabels (.renumber c.ids) level) (hsemicolon : .semicolon ∉ level.operators)
    (hoperand : c.Echoes k c.later operand operand') :
    c.Echoes k c.later (leftJoined level operand) (leftJoined level operand') := by
  rw [leftJoined_eq, leftJoined_eq]
  refine hoperand.bind fun left => Echoes.iterate (g := c.later) (fun j hj left => ?_) left
  refine Alongside.acceptThen hsemicolon (fun op _ => ?_) (.pure fun _ _ hs => hs)
  refine (hoperand j (by omega)).bind fun right => Alongside.fresh.bind fun id => ?_
  have hbuild : c.later (level.build id left op right) =
      level.build (c.ids + id) (c.later left) op (c.later right) := hlevel id left op right
  rw [← hbuild]
  exact Alongside.pure (a := Sum.inl (level.build id left op right)) fun _ _ hs => hs

theorem echoes_binaryFrom {operand operand' : Reading Expr}
    (hoperand : c.Echoes k c.later operand operand') : ∀ ls : List Level,
    (∀ level ∈ ls, Phrase.JoinsLabels (.renumber c.ids) level) →
    .semicolon ∉ continues ls →
    c.Echoes k c.later (binaryFrom operand ls) (binaryFrom operand' ls)
  | [], _, _ => hoperand
  | level :: tighter, hls, hsemicolon => by
      obtain ⟨hlevel, htighter⟩ := List.forall_mem_cons.mp hls
      rw [continues, List.mem_append, not_or] at hsemicolon
      exact echoes_leftJoined hlevel hsemicolon.1
        (echoes_binaryFrom hoperand tighter htighter hsemicolon.2)

theorem echoes_assignmentWith (hself : c.Echoes k c.later self self') :
    c.Echoes (k + 1) c.later (assignmentWith self) (assignmentWith self') := by
  refine (echoes_binaryFrom (echoes_unaryWith hself) levels (Phrase.joinsLabels_levels _)
    (by decide)).bind fun target => Echoes.acceptThen (by decide) (fun equals _ => ?_) (.pure _)
  refine hself.bind fun value => ?_
  cases target with
  | read id name => exact echoes_node fun _ => rfl
  | property id object name => exact echoes_node fun _ => rfl
  | _ => exact (Echoes.record equals _).bind fun _ => .pure _

theorem echoes_expressionAlong : ∀ (k : Nat) (ts ts' : List Token), k ≤ ts.length + 1 →
    k ≤ ts'.length + 1 → c.Echoes k c.later (expressionAlong ts) (expressionAlong ts')
  | 0, _, _, _, _ => .zero
  | k + 1, ts, ts', hts, hts' => by
      cases ts with
      | nil =>
        obtain rfl : k = 0 := by simpa using hts
        cases ts' with
        | nil => exact echoes_assignmentWith .zero
        | cons t' ts' => exact echoes_assignmentWith .zero
      | cons t ts =>
        cases ts' with
        | nil =>
          obtain rfl : k = 0 := by simpa using hts'
          exact echoes_assignmentWith .zero
        | cons t' ts' =>
          rw [List.length_cons] at hts hts'
          exact echoes_assignmentWith (echoes_expressionAlong k ts ts' (by omega) (by omega))

/-- An expression is read in both sources or in none, and not beyond the semicolon. -/
theorem echoes_expression : c.Echoes k c.later expression expression :=
  Echoes.along expressionAlong expressionAlong fun j _ ts ts' hts hts' =>
    echoes_expressionAlong j ts ts' hts hts' j (Nat.le_refl j)

end Expressions

end Setting
end ScriptLang.Grammar
