/-
ScriptLang.Proofs.Grammar.Reader — two ways to say what a reading does.

`Sound x P` is about what a reading has done: if it gave a result and recorded
no fault, then `P` holds between the tokens and the next identity before it,
the result, and the tokens and the next identity after it. It also says that
a reading records and throws static faults only, since this is what makes
"no fault at the end" the same as "no fault on the way".

`Takes x ts n a rest n'` is about what a reading will do: on the tokens `ts`
it gives `a` and leaves `rest`, whatever was recorded before, and records
nothing.

Both are closed under `bind`, so the lemmas about the rules of the grammar
follow the text of the rules.
-/
import ScriptLang.Grammar

namespace ScriptLang.Grammar

/-- No token of one of the kinds comes next. -/
def Stops (kinds : List Kind) (ts : List Token) : Prop :=
  ∀ t ∈ ts.head?, t.kind ∉ kinds

@[simp] theorem stops_nil (kinds : List Kind) : Stops kinds [] := by
  intro t ht
  simp at ht

@[simp] theorem stops_cons (kinds : List Kind) (t : Token) (ts : List Token) :
    Stops kinds (t :: ts) ↔ t.kind ∉ kinds := by
  simp [Stops]

theorem Stops.mono {kinds kinds' : List Kind} {ts : List Token} (h : Stops kinds ts)
    (hsub : ∀ k ∈ kinds', k ∈ kinds) : Stops kinds' ts :=
  fun t ht hmem => h t ht (hsub _ hmem)

/-- What a reading has read: the tokens and the next identity before, the result, and the
tokens and the next identity after. -/
abbrev Extent (α : Type) := List Token → Nat → α → List Token → Nat → Prop

/-- A list read by `x`, or no items if the next token is of a kind. -/
def unlessNext {α : Type} (kind : Kind) (x : Reading (List α)) : Reading (List α) := do
  if ← next? kind then pure [] else x

/-- Items in a row, each read where the one before it ends. -/
inductive Several {α : Type} (P : Extent α) : Extent (List α) where
  | nil {ts n} : Several P ts n [] ts n
  | cons {ts n a mid n₁ as rest n'} :
      P ts n a mid n₁ → Several P mid n₁ as rest n' → Several P ts n (a :: as) rest n'

/-- One round of a repetition: nothing more if the test says so, otherwise one more item. -/
def repeatRound {α : Type} (test : Reading Bool) (item : Reading (List α)) (items : List α) :
    Reading (List α ⊕ List α) := do
  if ← test then pure (.inr items) else pure (.inl (items ++ (← item)))

/-- Reads items until a test says that they are over. -/
def repeatUntil {α : Type} (test : Reading Bool) (item : Reading (List α)) :
    Reading (List α) :=
  iterate [] (repeatRound test item)

/-- An optional token is taken, or it does not come next. -/
theorem accept?_cases (kinds : List Kind) (s : State) :
    (accept? kinds s = .ok none s ∧ Stops kinds s.ahead) ∨
      ∃ t rest, s.ahead = t :: rest ∧ t.kind ∈ kinds ∧
        accept? kinds s = .ok (some t) { s with ahead := rest } := by
  unfold accept?
  cases hahead : s.ahead with
  | nil => exact .inl ⟨rfl, stops_nil kinds⟩
  | cons t rest =>
    by_cases hkind : t.kind ∈ kinds
    · exact .inr ⟨t, rest, rfl, hkind, by simp only [hkind, if_true]⟩
    · exact .inl ⟨by simp only [hkind, if_false], (stops_cons kinds t rest).mpr hkind⟩

/-! ## 1. What a reading has done -/

/-- Between the two states only static faults were recorded, and no identity was handed out
twice. -/
structure State.Grown (s s' : State) : Prop where
  nextId : s.nextId ≤ s'.nextId
  faults : ∃ new, s'.faults = s.faults ++ new ∧ ∀ fault ∈ new, fault.isStatic = true

/-- States with the same faults. -/
theorem State.Grown.of_le {s s' : State} (hid : s.nextId ≤ s'.nextId)
    (hfaults : s'.faults = s.faults) : s.Grown s' :=
  ⟨hid, [], by simp [hfaults], by simp⟩

theorem State.Grown.refl (s : State) : s.Grown s := .of_le (Nat.le_refl _) rfl

theorem State.Grown.trans {s₁ s₂ s₃ : State} (h : s₁.Grown s₂) (h' : s₂.Grown s₃) :
    s₁.Grown s₃ := by
  obtain ⟨hid, new, hnew, hstatic⟩ := h
  obtain ⟨hid', new', hnew', hstatic'⟩ := h'
  refine ⟨Nat.le_trans hid hid', new ++ new', by rw [hnew', hnew, List.append_assoc], ?_⟩
  intro fault hfault
  rcases List.mem_append.mp hfault with hmem | hmem
  · exact hstatic fault hmem
  · exact hstatic' fault hmem

/-- If nothing was recorded in all, nothing was recorded on the way. -/
theorem State.Grown.clean {s₁ s₂ s₃ : State} (h : s₁.Grown s₂) (h' : s₂.Grown s₃)
    (hclean : s₃.faults = s₁.faults) : s₂.faults = s₁.faults ∧ s₃.faults = s₂.faults := by
  obtain ⟨-, new, hnew, -⟩ := h
  obtain ⟨-, new', hnew', -⟩ := h'
  rw [hnew', hnew, List.append_assoc] at hclean
  have hnil : new ++ new' = [] := by simpa using hclean
  obtain ⟨rfl, rfl⟩ := List.append_eq_nil_iff.mp hnil
  exact ⟨by simpa using hnew, by simpa using hnew'⟩

/-- A state with one more static fault. -/
theorem State.Grown.snoc {s s' : State} {fault : Fault} (h : s'.faults = s.faults ++ [fault])
    (hid : s'.nextId = s.nextId) (hstatic : fault.isStatic = true) : s.Grown s' :=
  ⟨Nat.le_of_eq hid.symm, [fault], h, by simpa using hstatic⟩

/-- A reading that records no fault has read what `P` says, and every fault is static. -/
def Sound {α : Type} (x : Reading α) (P : Extent α) : Prop :=
  ∀ s, match x s with
    | .ok a s' =>
      s.Grown s' ∧ (s'.faults = s.faults → P s.ahead s.nextId a s'.ahead s'.nextId)
    | .error fault s' => fault.isStatic = true ∧ s.Grown s'

namespace Sound

variable {α β : Type} {P P' : Extent α} {x : Reading α} {f : α → Reading β}

theorem mono (h : Sound x P)
    (himp : ∀ ts n a rest n', P ts n a rest n' → P' ts n a rest n') : Sound x P' := by
  intro s
  have hs := h s
  cases hx : x s with
  | ok a s' =>
    rw [hx] at hs
    exact ⟨hs.1, fun hclean => himp _ _ _ _ _ (hs.2 hclean)⟩
  | error fault s' => rw [hx] at hs; exact hs

protected theorem bind {Q : α → Extent β} (h : Sound x P) (hf : ∀ a, Sound (f a) (Q a)) :
    Sound (x >>= f) fun ts n b rest n' =>
      ∃ a mid n₁, P ts n a mid n₁ ∧ Q a mid n₁ b rest n' := by
  intro s
  have hs := h s
  show match EStateM.bind x f s with
    | .ok b s' => _
    | .error fault s' => _
  unfold EStateM.bind
  cases hx : x s with
  | error fault s₁ => rw [hx] at hs; exact hs
  | ok a s₁ =>
    rw [hx] at hs
    have hs₁ := hf a s₁
    dsimp only
    cases hfa : f a s₁ with
    | error fault s₂ => rw [hfa] at hs₁; exact ⟨hs₁.1, hs.1.trans hs₁.2⟩
    | ok b s₂ =>
      rw [hfa] at hs₁
      refine ⟨hs.1.trans hs₁.1, fun hclean => ?_⟩
      obtain ⟨hclean₁, hclean₂⟩ := hs.1.clean hs₁.1 hclean
      exact ⟨a, s₁.ahead, s₁.nextId, hs.2 hclean₁, hs₁.2 hclean₂⟩

theorem pure (a : α) : Sound (Pure.pure a) fun ts n b rest n' => b = a ∧ rest = ts ∧ n' = n :=
  fun s => ⟨.refl s, fun _ => ⟨rfl, rfl, rfl⟩⟩

/-- A result that is only rewrapped. -/
protected theorem map (g : α → β) (h : Sound x P) :
    Sound (g <$> x) fun ts n b rest n' => ∃ a, b = g a ∧ P ts n a rest n' := by
  refine (h.bind fun a => Sound.pure (g a)).mono ?_
  rintro ts n b rest n' ⟨a, mid, n₁, hP, rfl, rfl, rfl⟩
  exact ⟨a, rfl, hP⟩

theorem fail (cause : GrammarCause) : Sound (Grammar.fail cause) P :=
  fun s => ⟨rfl, .refl s⟩

theorem record (token : Token) (cause : GrammarCause) :
    Sound (Grammar.record token cause) fun _ _ _ _ _ => False := by
  intro s
  refine ⟨.snoc rfl rfl rfl, fun hclean => ?_⟩
  have : s.faults ++ [Fault.grammar token.site cause] = s.faults := hclean
  simp at this

theorem peek : Sound Grammar.peek fun ts n _ rest n' => rest = ts ∧ n' = n :=
  fun s => ⟨.refl s, fun _ => ⟨rfl, rfl⟩⟩

theorem next? (kind : Kind) : Sound (Grammar.next? kind) fun ts n b rest n' =>
    b = ts.head?.any (·.kind = kind) ∧ rest = ts ∧ n' = n :=
  fun s => ⟨.refl s, fun _ => ⟨rfl, rfl, rfl⟩⟩

theorem atEnd : Sound Grammar.atEnd fun ts n b rest n' =>
    b = ts.isEmpty ∧ rest = ts ∧ n' = n :=
  fun s => ⟨.refl s, fun _ => ⟨rfl, rfl, rfl⟩⟩

theorem fresh : Sound Grammar.fresh fun ts n id rest n' => id = n ∧ rest = ts ∧ n' = n + 1 :=
  fun _ => ⟨.of_le (Nat.le_succ _) rfl, fun _ => ⟨rfl, rfl, rfl⟩⟩

/-- A reading that begins with an optional token goes on after the token, or without it. -/
theorem acceptThen {kinds : List Kind} {f : Option Token → Reading α}
    (hsome : ∀ t : Token, t.kind ∈ kinds → Sound (f (some t)) fun ts => P (t :: ts))
    (hnone : Sound (f none) fun ts n a rest n' => Stops kinds ts → P ts n a rest n') :
    Sound (Grammar.accept? kinds >>= f) P := by
  intro s
  show match EStateM.bind (Grammar.accept? kinds) f s with
    | .ok a s' => _
    | .error fault s' => _
  unfold EStateM.bind
  rcases accept?_cases kinds s with ⟨haccept, hstops⟩ | ⟨t, rest, hahead, hkind, haccept⟩
  · have hs := hnone s
    rw [haccept]
    dsimp only
    cases hf : f none s with
    | ok a s' => rw [hf] at hs; exact ⟨hs.1, fun hclean => hs.2 hclean hstops⟩
    | error fault s' => rw [hf] at hs; exact hs
  · have hs := hsome t hkind { s with ahead := rest }
    rw [haccept, hahead]
    dsimp only
    cases hf : f (some t) { s with ahead := rest } with
    | ok a s' => rw [hf] at hs; exact ⟨⟨hs.1.nextId, hs.1.faults⟩, hs.2⟩
    | error fault s' => rw [hf] at hs; exact ⟨hs.1, hs.2.nextId, hs.2.faults⟩

/-- A reading that begins with the question whether a token is there. -/
theorem skipThen {kind : Kind} {f : Bool → Reading α}
    (htrue : ∀ t : Token, t.kind = kind → Sound (f true) fun ts => P (t :: ts))
    (hfalse : Sound (f false) fun ts n a rest n' => Stops [kind] ts → P ts n a rest n') :
    Sound (Grammar.skip? kind >>= f) P := by
  unfold Grammar.skip?
  rw [bind_assoc]
  simp only [pure_bind]
  exact acceptThen (fun t ht => htrue t (by simpa using ht)) hfalse

theorem skip? (kind : Kind) : Sound (Grammar.skip? kind) fun ts n b rest n' =>
    n' = n ∧ if b then ∃ t : Token, ts = t :: rest ∧ t.kind = kind
      else rest = ts ∧ Stops [kind] ts := by
  rw [← bind_pure (Grammar.skip? kind)]
  refine skipThen (fun t ht => ?_) ?_
  · refine (Sound.pure true).mono ?_
    rintro ts n b rest n' ⟨rfl, rfl, rfl⟩
    exact ⟨rfl, t, rfl, ht⟩
  · refine (Sound.pure false).mono ?_
    rintro ts n b rest n' ⟨rfl, rfl, rfl⟩ hstops
    exact ⟨rfl, rfl, hstops⟩

theorem require (kind : Kind) (wanted : Wanted) :
    Sound (Grammar.require kind wanted) fun ts n t rest n' =>
      ts = t :: rest ∧ t.kind = kind ∧ n' = n := by
  unfold Grammar.require
  refine acceptThen (fun t ht => ?_) (fail (.expected wanted))
  refine (Sound.pure t).mono ?_
  rintro ts n t' rest n' ⟨rfl, rfl, rfl⟩
  exact ⟨rfl, by simpa using ht, rfl⟩

theorem unlessNext {kind : Kind} {x : Reading (List α)} {P : Extent (List α)} (h : Sound x P) :
    Sound (Grammar.unlessNext kind x) fun ts n as rest n' =>
      as = [] ∧ rest = ts ∧ n' = n ∨ P ts n as rest n' := by
  refine Sound.mono (Sound.bind (Q := fun _ ts n as rest n' =>
    as = [] ∧ rest = ts ∧ n' = n ∨ P ts n as rest n') (next? kind) fun b => ?_) ?_
  · cases b with
    | true => exact (Sound.pure []).mono fun _ _ _ _ _ h => .inl h
    | false => exact h.mono fun _ _ _ _ _ h => .inr h
  · rintro ts n as rest n' ⟨b, mid, n₁, ⟨-, rfl, rfl⟩, h⟩
    exact h

/-- A repetition: `T a` holds of what is read from the point where the repetition has got to
`a`. -/
theorem iterateAlong {step : α → Reading (α ⊕ β)} {T : α → Extent β}
    (hstep : ∀ a, Sound (step a) fun ts n r rest n' => match r with
      | .inl a' => ∀ b last n'', T a' rest n' b last n'' → T a ts n b last n''
      | .inr b => T a ts n b rest n') :
    ∀ (along : List Token) (a : α), Sound (Grammar.iterateAlong step along a) (T a)
  | [], a => by
      refine Sound.mono (Sound.bind
        (Q := fun r ts n b rest n' => r = .inr b ∧ rest = ts ∧ n' = n) (hstep a) fun r => ?_) ?_
      · cases r with
        | inl a' => exact fail .tooDeep
        | inr b => exact (Sound.pure b).mono fun _ _ _ _ _ ⟨hb, hrest⟩ => ⟨hb ▸ rfl, hrest⟩
      · rintro ts n b rest n' ⟨r, mid, n₁, hr, rfl, rfl, rfl⟩
        exact hr
  | _ :: along, a => by
      refine Sound.mono (Sound.bind
        (Q := fun r ts n b rest n' => match r with
          | .inl a' => T a' ts n b rest n'
          | .inr b' => b = b' ∧ rest = ts ∧ n' = n) (hstep a) fun r => ?_) ?_
      · cases r with
        | inl a' => exact iterateAlong hstep along a'
        | inr b => exact Sound.pure b
      · rintro ts n b rest n' ⟨r, mid, n₁, hr, hq⟩
        cases r with
        | inl a' => exact hr b rest n' hq
        | inr b' =>
          obtain ⟨rfl, rfl, rfl⟩ := hq
          exact hr

theorem iterate {step : α → Reading (α ⊕ β)} {T : α → Extent β}
    (hstep : ∀ a, Sound (step a) fun ts n r rest n' => match r with
      | .inl a' => ∀ b last n'', T a' rest n' b last n'' → T a ts n b last n''
      | .inr b => T a ts n b rest n') (a : α) : Sound (Grammar.iterate a step) (T a) :=
  fun s => iterateAlong hstep s.ahead a s

theorem repeatUntil {test : Reading Bool} {item : Reading (List α)} {ended : List Token → Bool}
    (htest : Sound test fun ts n b rest n' => b = ended ts ∧ rest = ts ∧ n' = n)
    (hitem : Sound item fun ts n as rest n' => ∃ a, as = [a] ∧ P ts n a rest n') :
    Sound (Grammar.repeatUntil test item) fun ts n as rest n' =>
      Several P ts n as rest n' ∧ ended rest = true := by
  refine Sound.mono (Sound.iterate (T := fun items ts n result rest n' =>
      ∃ more, result = items ++ more ∧ Several P ts n more rest n' ∧ ended rest = true)
    (fun items => ?_) []) ?_
  · refine Sound.mono (htest.bind (Q := fun b ts n r rest n' => match b, r with
      | true, .inr result => result = items ∧ rest = ts ∧ n' = n
      | false, .inl result => ∃ a, result = items ++ [a] ∧ P ts n a rest n'
      | _, _ => False) fun b => ?_) ?_
    · cases b with
      | true =>
        refine (Sound.pure _).mono ?_
        rintro ts n r rest n' ⟨rfl, rfl, rfl⟩
        exact ⟨rfl, rfl, rfl⟩
      | false =>
        refine (hitem.bind fun as => Sound.pure _).mono ?_
        rintro ts n r rest n' ⟨as, mid, n₁, ⟨a, rfl, ha⟩, rfl, rfl, rfl⟩
        exact ⟨a, rfl, ha⟩
    · rintro ts n r rest n' ⟨b, mid, n₁, ⟨hb, rfl, rfl⟩, hr⟩
      cases b with
      | true =>
        cases r with
        | inl result => exact hr.elim
        | inr result =>
          obtain ⟨rfl, rfl, rfl⟩ := hr
          exact ⟨[], by simp, .nil, hb.symm⟩
      | false =>
        cases r with
        | inr result => exact hr.elim
        | inl result =>
          obtain ⟨a, rfl, ha⟩ := hr
          rintro result' last n'' ⟨more, rfl, hmore, hended⟩
          exact ⟨a :: more, by simp, .cons ha hmore, hended⟩
  · rintro ts n as rest n' ⟨more, rfl, hmore⟩
    exact hmore

/-- Recovery records a fault, so nothing was recovered from if there is none. -/
theorem recovering (h : Sound x P) :
    Sound (Grammar.recovering x) fun ts n o rest n' => ∃ a, o = some a ∧ P ts n a rest n' := by
  intro s
  have hs := h s
  unfold Grammar.recovering
  cases hx : x s with
  | ok a s' =>
    rw [hx] at hs
    exact ⟨hs.1, fun hclean => ⟨a, rfl, hs.2 hclean⟩⟩
  | error fault s' =>
    rw [hx] at hs
    have hgrown : State.Grown s' { s' with
        faults := s'.faults ++ [fault], ahead := resume s'.ahead } := .snoc rfl rfl hs.1
    refine ⟨hs.2.trans hgrown, fun hclean => ?_⟩
    have hlast := (hs.2.clean hgrown hclean).2
    simp at hlast

end Sound

/-! ## 2. What a reading will do -/

/-- On the tokens `ts` a reading gives `a`, leaves `rest`, and records nothing. -/
def Takes {α : Type} (x : Reading α) (ts : List Token) (n : Nat) (a : α) (rest : List Token)
    (n' : Nat) : Prop :=
  ∀ stop faults, x ⟨ts, stop, faults, n⟩ = .ok a ⟨rest, stop, faults, n'⟩

namespace Takes

variable {α β : Type} {x : Reading α} {f : α → Reading β} {ts mid rest : List Token}
variable {n n₁ n' : Nat} {a : α} {b : β}

protected theorem bind (h : Takes x ts n a mid n₁) (hf : Takes (f a) mid n₁ b rest n') :
    Takes (x >>= f) ts n b rest n' := by
  intro stop faults
  show EStateM.bind x f _ = _
  unfold EStateM.bind
  rw [h stop faults]
  exact hf stop faults

theorem pure (a : α) : Takes (Pure.pure a) ts n a ts n := fun _ _ => rfl

protected theorem map (g : α → β) (h : Takes x ts n a rest n') :
    Takes (g <$> x) ts n (g a) rest n' :=
  h.bind (Takes.pure (g a))

theorem next? (kind : Kind) : Takes (Grammar.next? kind) ts n (ts.head?.any (·.kind = kind)) ts n :=
  fun _ _ => rfl

theorem atEnd : Takes Grammar.atEnd ts n ts.isEmpty ts n := fun _ _ => rfl

theorem fresh : Takes Grammar.fresh ts n n ts (n + 1) := fun _ _ => rfl

theorem accept?_some {kinds : List Kind} {t : Token} (h : t.kind ∈ kinds) :
    Takes (Grammar.accept? kinds) (t :: ts) n (some t) ts n := by
  intro stop faults
  simp [Grammar.accept?, h]

theorem accept?_none {kinds : List Kind} (h : Stops kinds ts) :
    Takes (Grammar.accept? kinds) ts n none ts n := by
  intro stop faults
  cases ts with
  | nil => rfl
  | cons t ts => simp [Grammar.accept?, (stops_cons kinds t ts).mp h]

theorem skip?_true {kind : Kind} {t : Token} (h : t.kind = kind) :
    Takes (Grammar.skip? kind) (t :: ts) n true ts n :=
  (accept?_some (by simpa using h)).bind (pure true)

theorem skip?_false {kind : Kind} (h : Stops [kind] ts) :
    Takes (Grammar.skip? kind) ts n false ts n :=
  (accept?_none h).bind (pure false)

theorem require {kind : Kind} {wanted : Wanted} {t : Token} (h : t.kind = kind) :
    Takes (Grammar.require kind wanted) (t :: ts) n t ts n :=
  (accept?_some (by simpa using h)).bind (pure t)

theorem next?_true {kind : Kind} {t : Token} (h : t.kind = kind) :
    Takes (Grammar.next? kind) (t :: ts) n true (t :: ts) n := by
  have hnext : (t :: ts).head?.any (·.kind = kind) = true := by simpa using h
  exact hnext ▸ next? kind

theorem next?_false {kind : Kind} (h : Stops [kind] ts) :
    Takes (Grammar.next? kind) ts n false ts n := by
  have hnext : ts.head?.any (·.kind = kind) = false := by
    cases ts with
    | nil => rfl
    | cons t ts => simpa using (stops_cons [kind] t ts).mp h
  exact hnext ▸ next? kind

theorem unlessNext_nil {kind : Kind} {x : Reading (List α)} {t : Token} (h : t.kind = kind) :
    Takes (Grammar.unlessNext kind x) (t :: ts) n [] (t :: ts) n :=
  (next?_true h).bind (pure [])

theorem unlessNext_list {kind : Kind} {x : Reading (List α)} {as : List α}
    (hstop : Stops [kind] ts) (h : Takes x ts n as rest n') :
    Takes (Grammar.unlessNext kind x) ts n as rest n' :=
  (next?_false hstop).bind h

theorem iterateAlong_done {step : α → Reading (α ⊕ β)} (h : Takes (step a) ts n (.inr b) rest n')
    (along : List Token) : Takes (Grammar.iterateAlong step along a) ts n b rest n' := by
  cases along with
  | nil => exact h.bind (pure b)
  | cons t along => exact h.bind (pure b)

theorem iterateAlong_more {step : α → Reading (α ⊕ β)} {a' : α} {t : Token} {along : List Token}
    (h : Takes (step a) ts n (.inl a') mid n₁)
    (h' : Takes (Grammar.iterateAlong step along a') mid n₁ b rest n') :
    Takes (Grammar.iterateAlong step (t :: along) a) ts n b rest n' :=
  h.bind h'

theorem iterate {step : α → Reading (α ⊕ β)}
    (h : Takes (Grammar.iterateAlong step ts a) ts n b rest n') :
    Takes (Grammar.iterate a step) ts n b rest n' := h

/-- A repetition reads its items if every round reads one and uses up a token. -/
theorem repeatUntil {test : Reading Bool} {item : Reading (List α)} {ended : List Token → Bool}
    {P : Extent α} {as : List α} (htest : ∀ ts n, Takes test ts n (ended ts) ts n)
    (hitem : ∀ ts' n a rest n', ts'.length ≤ ts.length → P ts' n a rest n' →
      ended ts' = false ∧ rest.length < ts'.length ∧ Takes item ts' n [a] rest n')
    (h : Several P ts n as rest n') (hended : ended rest = true) :
    Takes (Grammar.repeatUntil test item) ts n as rest n' := by
  suffices hround : ∀ (along : List Token) (items : List α), ts.length ≤ along.length →
      Takes (Grammar.iterateAlong (repeatRound test item) along items) ts n (items ++ as) rest n'
      from iterate (hround ts [] (Nat.le_refl _))
  induction h with
  | @nil ts n =>
    intro along items _
    have hround : Takes (repeatRound test item items) ts n (.inr items) ts n :=
      (htest ts n).bind (by rw [hended]; exact pure _)
    simpa using iterateAlong_done hround along
  | @cons ts n a mid n₁ as rest n' ha _ ih =>
    intro along items hlength
    obtain ⟨hmore, hshorter, htakes⟩ := hitem ts n a mid n₁ (Nat.le_refl _) ha
    have hround : Takes (repeatRound test item items) ts n (.inl (items ++ [a])) mid n₁ :=
      (htest ts n).bind (by rw [hmore]; exact htakes.bind (pure _))
    have hrest := ih (fun ts' n a rest n' hle => hitem ts' n a rest n' (by omega)) hended
    cases along with
    | nil =>
      rw [List.length_nil] at hlength
      omega
    | cons t along =>
      rw [List.length_cons] at hlength
      refine iterateAlong_more hround ?_
      simpa using hrest along (items ++ [a]) (by omega)

theorem recovering (h : Takes x ts n a rest n') :
    Takes (Grammar.recovering x) ts n (some a) rest n' := by
  intro stop faults
  simp [Grammar.recovering, h stop faults]

end Takes

end ScriptLang.Grammar
