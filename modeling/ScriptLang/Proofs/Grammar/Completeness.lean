/-
ScriptLang.Proofs.Grammar.Completeness — phrases are read.

The converse of `Proofs.Grammar.Soundness`: if the tokens begin with a phrase
of a sort, the rule for the sort reads exactly this phrase, builds its tree
and records no fault (`Takes` of `Proofs.Grammar.Reader`).

A rule reads on as long as it can, so this needs a condition on what follows.
After an expression there is no operator, no parenthesis, no dot and no equals
sign (`expressionContinues`), and after a dangling statement there is no
`else`. Where one phrase stands inside another the rules of the grammar
provide for that: the words that end an inner phrase never continue it.

A rule also has to be able to read deep enough. The readings that the rules
are given read phrases with fewer tokens ahead than the rule itself, so one
count, of the tokens ahead, is enough for everything.
-/
import ScriptLang.Proofs.Grammar.Soundness

namespace ScriptLang.Grammar

open Phrase

/-! ## 1. What goes on with a phrase -/

/-- The kinds that go on with operands joined by the operators of some levels. -/
def continues : List Level → List Kind
  | [] => [.leftParen, .dot]
  | level :: tighter => level.operators ++ continues tighter

/-- The kinds that go on with an expression. -/
def expressionContinues : List Kind := .equal :: continues levels

/-- No kind goes on in two ways. -/
theorem continues_levels_nodup : (continues levels).Nodup := by decide

/-- Whoever does not go on with the outer levels does not go on with the inner ones. -/
theorem Stops.tighter {level : Level} {tighter : List Level} {ts : List Token}
    (h : Stops (continues (level :: tighter)) ts) : Stops (continues tighter) ts :=
  h.mono fun _ hk => List.mem_append.mpr (.inr hk)

theorem Stops.levels {ts : List Token} (h : Stops expressionContinues ts) :
    Stops (continues levels) ts :=
  h.mono fun _ hk => List.mem_cons_of_mem _ hk

/-- A token that does not go on with an expression. -/
theorem Stops.of_kind {kinds : List Kind} {t : Token} {ts : List Token} {kind : Kind}
    (h : t.kind = kind) (hkind : kind ∉ kinds) : Stops kinds (t :: ts) :=
  (stops_cons kinds t ts).mpr (h ▸ hkind)

/-- Tokens that begin with one of some kinds do not begin with any other. -/
theorem Stops.of_begins {kinds kinds' : List Kind} {ts : List Token} (h : Begins kinds ts)
    (hdisjoint : ∀ k ∈ kinds, k ∉ kinds') : Stops kinds' ts := by
  obtain ⟨t, ts, rfl, hkind⟩ := h
  exact (stops_cons kinds' t ts).mpr (hdisjoint _ hkind)

/-- A reading takes every expression that has fewer than `bound` tokens ahead. -/
def ReadsBelow (bound : Nat) (self : Reading Expr) : Prop :=
  ∀ ts n e rest n', ts.length < bound → Expression ts n e rest n' →
    Stops expressionContinues rest → Takes self ts n e rest n'

/-! ## 2. Primaries and lists -/

theorem takes_primaryWith {self : Reading Expr} {bound : Nat} (hself : ReadsBelow bound self)
    {ts n e rest n'} (hlength : ts.length ≤ bound) (h : Primary ts n e rest n') :
    Takes (primaryWith self) ts n e rest n' := by
  cases h with
  | falseWord hkind | trueWord hkind | nilWord hkind | self hkind | read hkind =>
    refine (Takes.accept?_some (by rw [hkind]; decide)).bind ?_
    simp only [hkind]
    exact Takes.fresh.bind (Takes.pure _)
  | @literal t ts n hkind =>
    have hkinds : t.kind = .number ∨ t.kind = .string := by simpa using hkind
    rcases hkinds with hkind | hkind
    all_goals
      refine (Takes.accept?_some (by rw [hkind]; decide)).bind ?_
      simp only [hkind]
      exact Takes.fresh.bind (Takes.pure _)
  | group hopening hinner hclosing =>
    rw [List.length_cons] at hlength
    refine (Takes.accept?_some (by rw [hopening]; decide)).bind ?_
    simp only [hopening]
    exact (hself _ _ _ _ _ hlength hinner (.of_kind hclosing (by decide))).bind
      ((Takes.require hclosing).bind (Takes.fresh.bind (Takes.pure _)))

/-- A list within the allowed length is read if its items are. -/
theorem takes_commaSeparated {α : Type} {list : BoundedList} {item : Reading α} {P : Extent α}
    {ts n as rest n'} (hitem : ∀ ts' n a rest n', ts'.length ≤ ts.length → P ts' n a rest n' →
      rest.length < ts'.length ∧ Takes item ts' n a rest n')
    (h : Separated P ts n as rest n') (hmany : as.length ≤ maxArity) (hstop : Stops [.comma] rest) :
    Takes (commaSeparated list item) ts n as rest n' := by
  rw [commaSeparated_eq]
  suffices hround : ∀ (along : List Token) (items : List α), ts.length ≤ along.length →
      items.length + as.length ≤ maxArity →
      Takes (iterateAlong (separatedRound list item) along items) ts n (items ++ as) rest n'
      from Takes.iterate (hround ts [] (Nat.le_refl _) (by simpa using hmany))
  clear hmany
  have hroom : ∀ (items : List α) (ts : List Token) (n : Nat), items.length < maxArity →
      Takes (checkRoom list items) ts n () ts n := by
    intro items ts n hlt
    unfold checkRoom
    rw [if_neg (by omega)]
    exact Takes.pure ()
  induction h with
  | @one ts n a rest n' ha =>
    intro along items _ hmany
    rw [List.length_singleton] at hmany
    obtain ⟨-, htakes⟩ := hitem ts n a rest n' (Nat.le_refl _) ha
    have hround : Takes (separatedRound list item items) ts n (.inr (items ++ [a])) rest n' :=
      (hroom items ts n (by omega)).bind (htakes.bind ((Takes.skip?_false hstop).bind
        (Takes.pure _)))
    exact Takes.iterateAlong_done hround along
  | @more ts n a comma mid n₁ as rest n' ha hcomma _ ih =>
    intro along items hlength hmany
    rw [List.length_cons] at hmany
    obtain ⟨hshorter, htakes⟩ := hitem ts n a (comma :: mid) n₁ (Nat.le_refl _) ha
    rw [List.length_cons] at hshorter
    have hround : Takes (separatedRound list item items) ts n (.inl (items ++ [a])) mid n₁ :=
      (hroom items ts n (by omega)).bind (htakes.bind ((Takes.skip?_true hcomma).bind
        (Takes.pure _)))
    have hrest := ih (fun ts' n a rest n' hle => hitem ts' n a rest n' (by omega)) hstop
    cases along with
    | nil =>
      rw [List.length_nil] at hlength
      omega
    | cons t along =>
      rw [List.length_cons] at hlength
      refine Takes.iterateAlong_more hround ?_
      simpa using hrest along (items ++ [a]) (by omega)
        (by rw [List.length_append, List.length_singleton]; omega)

/-! ## 3. Calls and unary operators -/

/-- Arguments as a list with commas, each of which ends where an expression can end. -/
theorem separated_of_arguments {ts n e mid n₁ es rest n'} (he : Expression ts n e mid n₁)
    (hmore : MoreArguments mid n₁ es rest n') (hstop : Stops expressionContinues rest) :
    Separated (fun ts n e rest n' => Expression ts n e rest n' ∧ Stops expressionContinues rest)
      ts n (e :: es) rest n' := by
  match hmore with
  | .done => exact .one ⟨he, hstop⟩
  | .more hcomma he' hmore' =>
    exact .more ⟨he, .of_kind hcomma (by decide)⟩ hcomma
      (separated_of_arguments he' hmore' hstop)

theorem takes_finishCallWith {self : Reading Expr} {bound : Nat} (hself : ReadsBelow bound self)
    {ts n arguments mid n₁} {paren : Token} (callee : Expr) (hlength : ts.length < bound)
    (hargs : Arguments ts n arguments (paren :: mid) n₁) (hmany : arguments.length ≤ maxArity)
    (hparen : paren.kind = .rightParen) :
    Takes (finishCallWith self callee) ts n (.call n₁ callee paren arguments) mid (n₁ + 1) := by
  rw [finishCallWith_eq]
  refine Takes.bind ?_ ((Takes.require hparen).bind (Takes.fresh.bind (Takes.pure _)))
  cases hargs with
  | none => exact Takes.unlessNext_nil hparen
  | some he hmore =>
    refine Takes.unlessNext_list (.of_begins he.begins (by decide)) ?_
    have hstop : Stops expressionContinues (paren :: mid) := .of_kind hparen (by decide)
    refine takes_commaSeparated (fun ts' n e rest n' hle h => ?_)
      (separated_of_arguments he hmore hstop) hmany (.of_kind hparen (by decide))
    exact ⟨h.1.shorter, hself _ _ _ _ _ (by omega) h.1 h.2⟩

/-- One round of reading what comes after a callee. -/
def callRound (self : Reading Expr) (callee : Expr) : Reading (Expr ⊕ Expr) := do
  match ← accept? [.leftParen, .dot] with
  | none => pure (.inr callee)
  | some token =>
    if token.kind = .leftParen then pure (.inl (← finishCallWith self callee))
    else
      let name ← require .identifier .propertyName
      pure (.inl (.property (← fresh) callee name))

theorem callWith_eq (self : Reading Expr) :
    callWith self = primaryWith self >>= fun callee => iterate callee (callRound self) := rfl

theorem takes_calls {self : Reading Expr} {bound : Nat} (hself : ReadsBelow bound self)
    {callee ts n e rest n'} : Calls callee ts n e rest n' → Stops [.leftParen, .dot] rest →
      ts.length ≤ bound → ∀ along : List Token, ts.length ≤ along.length →
      Takes (iterateAlong (callRound self) along callee) ts n e rest n'
  | .done, hstop, _, along, _ => by
      have hround : Takes (callRound self callee) ts n (.inr callee) ts n :=
        (Takes.accept?_none hstop).bind (Takes.pure _)
      exact Takes.iterateAlong_done hround along
  | .call _ _ _ _ _, _, _, [], hlength => absurd hlength (by simp)
  | .property _ _ _, _, _, [], hlength => absurd hlength (by simp)
  | .call hopening hargs hmany hparen h, hstop, hbound, _ :: along, hlength => by
      rw [List.length_cons] at hbound hlength
      have hshorter := hargs.shorter
      rw [List.length_cons] at hshorter
      refine Takes.iterateAlong_more ((Takes.accept?_some (by rw [hopening]; decide)).bind ?_)
        (takes_calls hself h hstop (by omega) along (by simp at hlength; omega))
      simp only [hopening, if_true]
      exact (takes_finishCallWith hself callee (by omega) hargs hmany hparen).bind (Takes.pure _)
  | .property hdot hname h, hstop, hbound, _ :: along, hlength => by
      simp only [List.length_cons] at hbound hlength
      refine Takes.iterateAlong_more ((Takes.accept?_some (by rw [hdot]; decide)).bind ?_)
        (takes_calls hself h hstop (by omega) along (by omega))
      simp only [hdot, reduceCtorEq, if_false]
      exact (Takes.require hname).bind (Takes.fresh.bind (Takes.pure _))

theorem takes_callWith {self : Reading Expr} {bound : Nat} (hself : ReadsBelow bound self)
    {ts n e rest n'} (hlength : ts.length ≤ bound) (h : Call ts n e rest n')
    (hstop : Stops [.leftParen, .dot] rest) : Takes (callWith self) ts n e rest n' := by
  obtain ⟨hprimary, hcalls⟩ := h
  rw [callWith_eq]
  have hshorter := hprimary.shorter
  exact (takes_primaryWith hself hlength hprimary).bind
    (Takes.iterate (takes_calls hself hcalls hstop (by omega) _ (Nat.le_refl _)))

/-- The operators before a call are taken together. -/
theorem takes_unaryOperators {ops ts : List Token} {n : Nat}
    (hops : ∀ op ∈ ops, op.kind ∈ [.bang, .minus]) (hstop : Stops [.bang, .minus] ts) :
    Takes unaryOperators (ops ++ ts) n ops ts n := by
  have htake : (ops ++ ts).takeWhile (fun t => decide (t.kind ∈ [.bang, .minus])) = ops ∧
      (ops ++ ts).dropWhile (fun t => decide (t.kind ∈ [.bang, .minus])) = ts := by
    induction ops with
    | nil =>
      cases ts with
      | nil => exact ⟨rfl, rfl⟩
      | cons t ts =>
        have hkind := (stops_cons _ t ts).mp hstop
        simp only [List.nil_append, List.takeWhile_cons, List.dropWhile_cons, hkind, decide_false]
        exact ⟨rfl, rfl⟩
    | cons op ops ih =>
      obtain ⟨htake, hdrop⟩ := ih fun op' hop' => hops op' (List.mem_cons_of_mem _ hop')
      have hkind := hops op (List.mem_cons_self ..)
      simp only [List.cons_append, List.takeWhile_cons, List.dropWhile_cons, hkind, decide_true,
        if_true, htake, hdrop, and_self]
  intro stop faults
  show EStateM.Result.ok ((ops ++ ts).takeWhile _) _ = _
  simp only [htake]

/-- Unary operators before a call wrap its tree from the inside out. -/
theorem unary_operators {ts n e rest n'} : Unary ts n e rest n' →
    ∃ ops mid operand n₁, ts = ops ++ mid ∧ (∀ op ∈ ops, op.kind ∈ [.bang, .minus]) ∧
      Call mid n operand rest n₁ ∧
      Takes (ops.foldrM (fun op operand => do pure (.unary (← fresh) op operand)) operand)
        rest n₁ e rest n'
  | .call h => ⟨[], _, _, _, rfl, by simp, h, Takes.pure _⟩
  | @Unary.operator op _ _ _ _ _ hop h => by
      obtain ⟨ops, mid, operand, n₁, rfl, hops, hcall, hwrap⟩ := unary_operators h
      refine ⟨op :: ops, mid, operand, n₁, rfl, ?_, hcall, ?_⟩
      · intro op' hop'
        rcases List.mem_cons.mp hop' with rfl | hmem
        · exact hop
        · exact hops op' hmem
      · rw [List.foldrM_cons]
        exact hwrap.bind (Takes.fresh.bind (Takes.pure _))

theorem takes_unaryWith {self : Reading Expr} {bound : Nat} (hself : ReadsBelow bound self)
    {ts n e rest n'} (hlength : ts.length ≤ bound) (h : Unary ts n e rest n')
    (hstop : Stops [.leftParen, .dot] rest) : Takes (unaryWith self) ts n e rest n' := by
  obtain ⟨ops, mid, operand, n₁, rfl, hops, hcall, hwrap⟩ := unary_operators h
  rw [List.length_append] at hlength
  have hprimary : Stops [.bang, .minus] mid := .of_begins hcall.begins (by decide)
  exact (takes_unaryOperators hops hprimary).bind
    ((takes_callWith hself (by omega) hcall hstop).bind hwrap)

/-! ## 4. Binary operators -/

/-- One round of reading operators of a level. -/
def operatorRound (level : Level) (operand : Reading Expr) (left : Expr) :
    Reading (Expr ⊕ Expr) := do
  match ← accept? level.operators with
  | none => pure (.inr left)
  | some operator =>
    let right ← operand
    pure (.inl (level.build (← fresh) left operator right))

theorem leftJoined_eq (level : Level) (operand : Reading Expr) :
    leftJoined level operand = operand >>= fun left =>
      iterate left (operatorRound level operand) := rfl

/-- What follows a left operand does not go on with it. -/
theorem Phrase.More.stops {level tighter left ts n e rest n'}
    (hdistinct : ∀ k ∈ level.operators, k ∉ continues tighter) :
    More level tighter left ts n e rest n' → Stops (continues tighter) rest →
      Stops (continues tighter) ts
  | .done, hstop => hstop
  | .more hop _ _, _ => (stops_cons _ _ _).mpr (hdistinct _ hop)

theorem takes_more {operand : Reading Expr} {bound : Nat} {level : Level} {tighter : List Level}
    (hdistinct : ∀ k ∈ level.operators, k ∉ continues tighter)
    (hoperand : ∀ ts n e rest n', ts.length ≤ bound → Joined tighter ts n e rest n' →
      Stops (continues tighter) rest → Takes operand ts n e rest n')
    {left ts n e rest n'} : More level tighter left ts n e rest n' →
      Stops (continues (level :: tighter)) rest → ts.length ≤ bound →
      ∀ along : List Token, ts.length ≤ along.length →
      Takes (iterateAlong (operatorRound level operand) along left) ts n e rest n'
  | .done, hstop, _, along, _ => by
      have hround : Takes (operatorRound level operand left) ts n (.inr left) ts n :=
        (Takes.accept?_none (hstop.mono fun _ hk => List.mem_append.mpr (.inl hk))).bind
          (Takes.pure _)
      exact Takes.iterateAlong_done hround along
  | .more _ _ _, _, _, [], hlength => absurd hlength (by simp)
  | .more hop hright hmore, hstop, hbound, _ :: along, hlength => by
      simp only [List.length_cons] at hbound hlength
      have hshorter := hright.shorter
      have hend := hmore.stops hdistinct hstop.tighter
      refine Takes.iterateAlong_more ((Takes.accept?_some hop).bind ?_)
        (takes_more hdistinct hoperand hmore hstop (by omega) along (by omega))
      exact (hoperand _ _ _ _ _ (by omega) hright hend).bind (Takes.fresh.bind (Takes.pure _))

theorem takes_binaryFrom {operand : Reading Expr} {bound : Nat}
    (hoperand : ∀ ts n e rest n', ts.length ≤ bound → Unary ts n e rest n' →
      Stops [.leftParen, .dot] rest → Takes operand ts n e rest n') :
    ∀ ls : List Level, (continues ls).Nodup → ∀ ts n e rest n', ts.length ≤ bound →
      Joined ls ts n e rest n' → Stops (continues ls) rest →
      Takes (binaryFrom operand ls) ts n e rest n'
  | [], _, ts, n, e, rest, n', hlength, h, hstop => by
      cases h with
      | operand h => exact hoperand ts n e rest n' hlength h hstop
  | level :: tighter, hnodup, ts, n, e, rest, n', hlength, h, hstop => by
      obtain ⟨-, htighter, hdistinct⟩ := List.nodup_append.mp hnodup
      have hdistinct' : ∀ k ∈ level.operators, k ∉ continues tighter :=
        fun k hk hk' => hdistinct k hk k hk' rfl
      have hinner := takes_binaryFrom hoperand tighter htighter
      cases h with
      | level hleft hmore =>
        have hshorter := hleft.shorter
        rw [binaryFrom, leftJoined_eq]
        exact (hinner _ _ _ _ _ hlength hleft (hmore.stops hdistinct' hstop.tighter)).bind
          (Takes.iterate (takes_more hdistinct' hinner hmore hstop (by omega) _ (Nat.le_refl _)))

/-! ## 5. Assignments -/

/-- An operand by itself stands at every level. -/
theorem joined_of_unary {ts n e rest n'} (h : Unary ts n e rest n') :
    ∀ ls : List Level, Joined ls ts n e rest n'
  | [] => .operand h
  | _ :: tighter => .level (joined_of_unary h tighter) .done

/-- Calls and properties after calls and properties. -/
theorem Phrase.Calls.trans {callee ts n e mid n₁ e' rest n'} : Calls callee ts n e mid n₁ →
    Calls e mid n₁ e' rest n' → Calls callee ts n e' rest n'
  | .done, hlater => hlater
  | .call hopening hargs hmany hparen h, hlater =>
    .call hopening hargs hmany hparen (h.trans hlater)
  | .property hdot hname h, hlater => .property hdot hname (h.trans hlater)

theorem takes_assignmentWith {self : Reading Expr} {bound : Nat} (hself : ReadsBelow bound self)
    {ts n e rest n'} (hlength : ts.length ≤ bound) (h : Expression ts n e rest n')
    (hstop : Stops expressionContinues rest) : Takes (assignmentWith self) ts n e rest n' := by
  have hjoined : ∀ {ts n e rest n'}, ts.length ≤ bound → Joined levels ts n e rest n' →
      Stops (continues levels) rest → Takes (binaryFrom (unaryWith self) levels) ts n e rest n' :=
    fun hle hj hs => takes_binaryFrom (fun _ _ _ _ _ hle hu hs => takes_unaryWith hself hle hu hs)
      levels continues_levels_nodup _ _ _ _ _ hle hj hs
  cases h with
  | plain h =>
    refine (hjoined hlength h hstop.levels).bind ((Takes.accept?_none ?_).bind (Takes.pure _))
    exact hstop.mono (by decide)
  | @assign name equals ts n value rest n' hname hequals hvalue =>
    have htarget : Joined levels (name :: equals :: ts) n (.read n name) (equals :: ts) (n + 1) :=
      joined_of_unary (.call (.mk (.read hname) .done)) levels
    refine (hjoined hlength htarget (.of_kind hequals (by decide))).bind
      ((Takes.accept?_some (by rw [hequals]; decide)).bind ?_)
    simp only [List.length_cons] at hlength
    exact (hself _ _ _ _ _ (by omega) hvalue hstop).bind (Takes.fresh.bind (Takes.pure _))
  | setProperty hcall hdot hname hequals hvalue =>
    have hshorter := hcall.shorter
    simp only [List.length_cons] at hshorter
    obtain ⟨hprimary, hcalls⟩ := hcall
    have htarget := joined_of_unary
      (.call (.mk hprimary (hcalls.trans (.property hdot hname .done)))) levels
    refine (hjoined hlength htarget (.of_kind hequals (by decide))).bind
      ((Takes.accept?_some (by rw [hequals]; decide)).bind ?_)
    exact (hself _ _ _ _ _ (by omega) hvalue hstop).bind (Takes.fresh.bind (Takes.pure _))

/-- No expression has no tokens, so a reading of nothing reads all of these. -/
theorem readsBelow_one (self : Reading Expr) : ReadsBelow 1 self := by
  intro ts n e rest n' hlength h
  have hshorter := h.shorter
  omega

theorem takes_expressionAlong : ∀ along : List Token,
    ReadsBelow (along.length + 2) (expressionAlong along)
  | [], _, _, _, _, _, hlength, h, hstop =>
      takes_assignmentWith (readsBelow_one _) (Nat.le_of_lt_succ hlength) h hstop
  | _ :: along, _, _, _, _, _, hlength, h, hstop =>
      takes_assignmentWith (takes_expressionAlong along) (Nat.le_of_lt_succ hlength) h hstop

theorem takes_expression {ts n e rest n'} (h : Expression ts n e rest n')
    (hstop : Stops expressionContinues rest) : Takes expression ts n e rest n' :=
  takes_expressionAlong ts ts n e rest n' (by omega) h hstop

/-! ## 6. Statements without statements in them -/

/-- An optional expression is read up to the word that ends it. -/
theorem takes_expressionUnless {kind : Kind} {t : Token} {ts n e rest n'} (ht : t.kind = kind)
    (hbegin : kind ∉ expressionWords) (hcontinue : kind ∉ expressionContinues)
    (h : Optional ts n e (t :: rest) n') :
    Takes (expressionUnless kind) ts n e (t :: rest) n' := by
  cases h with
  | none => exact (Takes.next?_true ht).bind (Takes.pure none)
  | some h =>
    have hstop : Stops [kind] ts := by
      refine .of_begins h.begins fun k hk hk' => hbegin ?_
      rw [← List.mem_singleton.mp hk']
      exact hk
    exact (Takes.next?_false hstop).bind
      (Takes.map some (takes_expression h (.of_kind ht hcontinue)))

/-- An expression is read up to the word that ends it. -/
theorem takes_expressionUpTo {kind : Kind} {t : Token} {ts n e rest n'} (ht : t.kind = kind)
    (hcontinue : kind ∉ expressionContinues) (h : Expression ts n e (t :: rest) n') :
    Takes expression ts n e (t :: rest) n' :=
  takes_expression h (.of_kind ht hcontinue)

theorem takes_varDeclaration {word : Token} {ts n s rest n'}
    (h : VarDecl (word :: ts) n s rest n') : Takes varDeclaration ts n s rest n' := by
  rw [varDeclaration_eq]
  cases h with
  | @bare _ _ semicolon rest _ _ hname hsemicolon =>
    have hstop : Stops [.equal] (semicolon :: rest) := .of_kind hsemicolon (by decide)
    exact (Takes.require hname).bind (((Takes.skip?_false hstop).bind (Takes.pure none)).bind
      ((Takes.require hsemicolon).bind (Takes.pure _)))
  | initialized _ hname hequals h hsemicolon =>
    have hvalue := takes_expressionUpTo hsemicolon (by decide) h
    exact (Takes.require hname).bind (((Takes.skip?_true hequals).bind (Takes.map some hvalue)).bind
      ((Takes.require hsemicolon).bind (Takes.pure _)))

theorem takes_expressionStatement {ts n s rest n'} (h : ExprStmt ts n s rest n') :
    Takes expressionStatement ts n s rest n' := by
  obtain ⟨h, hsemicolon⟩ := h
  exact (takes_expressionUpTo hsemicolon (by decide) h).bind
    ((Takes.require hsemicolon).bind (Takes.pure _))

theorem takes_forInitializer {ts n o rest n'} (h : ForFirst ts n o rest n') :
    Takes forInitializer ts n o rest n' := by
  cases h with
  | none hsemicolon => exact (Takes.skip?_true hsemicolon).bind (Takes.pure none)
  | var h =>
    obtain ⟨word, ts, rfl, hword⟩ := h.begins
    have hword' : word.kind = .varWord := by simpa using hword
    exact (Takes.skip?_false (.of_kind hword' (by decide))).bind
      ((Takes.skip?_true hword').bind (Takes.map some (takes_varDeclaration h)))
  | expr h =>
    exact (Takes.skip?_false (.of_begins h.begins (by decide))).bind
      ((Takes.skip?_false (.of_begins h.begins (by decide))).bind
        (Takes.map some (takes_expressionStatement h)))

/-! ## 7. Blocks, routines and classes -/

/-- Readings take every declaration and every statement that has fewer than `bound` tokens
ahead. -/
structure ReadsSentencesBelow (bound : Nat) (declaration : Reading (Option Stmt))
    (statement : Reading Stmt) : Prop where
  declarations : ∀ ts n s rest n', ts.length < bound → Declaration ts n s rest n' →
    Stops [.elseWord] rest → Takes declaration ts n (some s) rest n'
  statements : ∀ d ts n s rest n', ts.length < bound → Statement d ts n s rest n' →
    (d = true → Stops [.elseWord] rest) → Takes statement ts n s rest n'

/-- No sentence has no tokens, so readings of nothing read all of these. -/
theorem readsSentencesBelow_one (declaration : Reading (Option Stmt)) (statement : Reading Stmt) :
    ReadsSentencesBelow 1 declaration statement where
  declarations ts n s rest n' hlength h := by
    have hshorter := h.shorter
    omega
  statements d ts n s rest n' hlength h := by
    have hshorter := h.shorter
    omega

theorem takes_atClosingBrace (ts : List Token) (n : Nat) :
    Takes atClosingBrace ts n (closesBody ts) ts n :=
  (Takes.next? .rightBrace).bind (Takes.atEnd.bind (Takes.pure _))

theorem closesBody_cons {t : Token} {ts : List Token} (h : t.kind = .rightBrace) :
    closesBody (t :: ts) = true := by
  simp [closesBody, h]

theorem closesBody_of_begins {kinds : List Kind} {ts : List Token} (h : Begins kinds ts)
    (hbrace : .rightBrace ∉ kinds) : closesBody ts = false := by
  obtain ⟨t, ts, rfl, hkind⟩ := h
  have hne : t.kind ≠ .rightBrace := fun heq => hbrace (heq ▸ hkind)
  simp [closesBody, hne]

/-- A declaration that no `else` follows. -/
def DeclarationApart : Extent Stmt :=
  fun ts n s rest n' => Declaration ts n s rest n' ∧ Stops [.elseWord] rest

/-- The declarations of a block stand apart, since no declaration begins with `else`. -/
theorem block_several {ts n body rest n'} (h : Block ts n body rest n') :
    ∃ closing : Token, closing.kind = .rightBrace ∧
      Several DeclarationApart ts n body (closing :: rest) n' ∧ Stops [.elseWord] ts := by
  induction body generalizing ts n with
  | nil =>
    cases h with
    | close hclosing => exact ⟨_, hclosing, .nil, .of_kind hclosing (by decide)⟩
  | cons s body ih =>
    cases h with
    | cons hs hbody =>
      obtain ⟨closing, hclosing, hseveral, hstop⟩ := ih hbody
      exact ⟨closing, hclosing, .cons ⟨hs, hstop⟩ hseveral, .of_begins hs.begins (by decide)⟩

theorem methods_several {ts n methods rest n'} (h : Methods ts n methods rest n') :
    ∃ closing : Token, closing.kind = .rightBrace ∧
      Several Function ts n methods (closing :: rest) n' := by
  induction methods generalizing ts n with
  | nil =>
    cases h with
    | close hclosing => exact ⟨_, hclosing, .nil⟩
  | cons m methods ih =>
    cases h with
    | cons hm hmethods =>
      obtain ⟨closing, hclosing, hseveral⟩ := ih hmethods
      exact ⟨closing, hclosing, .cons hm hseveral⟩

theorem takes_blockWith {declaration : Reading (Option Stmt)} {statement : Reading Stmt}
    {bound : Nat} (hinner : ReadsSentencesBelow bound declaration statement)
    {ts n body rest n'} (hlength : ts.length < bound) (h : Block ts n body rest n') :
    Takes (blockWith declaration) ts n body rest n' := by
  obtain ⟨closing, hclosing, hseveral, -⟩ := block_several h
  rw [blockWith_eq]
  refine Takes.bind (Takes.repeatUntil takes_atClosingBrace ?_ hseveral (closesBody_cons hclosing))
    ((Takes.require hclosing).bind (Takes.pure body))
  rintro ts' n s rest n' hle ⟨hs, hstop⟩
  exact ⟨closesBody_of_begins hs.begins (by decide), hs.shorter,
    Takes.map Option.toList (hinner.declarations _ _ _ _ _ (by omega) hs hstop)⟩

/-- Parameters as a list with commas. -/
theorem separated_of_parameters {ts names rest} (n : Nat) (h : Parameters ts names rest)
    (hne : names ≠ []) :
    Separated (fun ts n (t : Token) rest n' => ts = t :: rest ∧ t.kind = .identifier ∧ n' = n)
      ts n names rest n := by
  induction h with
  | none => exact absurd rfl hne
  | one hname => exact .one ⟨rfl, hname, rfl⟩
  | more hname hcomma _ ih => exact .more ⟨rfl, hname, rfl⟩ hcomma (ih (by simp))

theorem takes_parameters {paren : Token} {ts parameters rest} (n : Nat)
    (h : Parameters ts parameters (paren :: rest)) (hmany : parameters.length ≤ maxArity)
    (hparen : paren.kind = .rightParen) :
    Takes (unlessNext .rightParen
      (commaSeparated .parameters (require .identifier .parameterName)))
      ts n parameters (paren :: rest) n := by
  by_cases hne : parameters = []
  · subst hne
    cases h with
    | none => exact Takes.unlessNext_nil hparen
  · have hbegins : Begins [.identifier] ts := by
      cases h with
      | none => exact absurd rfl hne
      | one hname => exact .cons (by rw [hname]; decide)
      | more hname _ _ => exact .cons (by rw [hname]; decide)
    refine Takes.unlessNext_list (.of_begins hbegins (by decide))
      (takes_commaSeparated ?_ (separated_of_parameters n h hne) hmany (.of_kind hparen (by decide)))
    rintro ts' n t rest n' - ⟨rfl, ht, rfl⟩
    exact ⟨Nat.lt_succ_self _, Takes.require ht⟩

theorem takes_routineWith {declaration : Reading (Option Stmt)} {statement : Reading Stmt}
    {bound : Nat} (hinner : ReadsSentencesBelow bound declaration statement) (role : RoutineRole)
    {ts n r rest n'} (hlength : ts.length ≤ bound) (h : Function ts n r rest n') :
    Takes (routineWith declaration role) ts n r rest n' := by
  rw [routineWith_eq]
  cases h with
  | mk hname hopening hparameters hmany hclosing hbrace hbody =>
    have hshorter := hparameters.shorter
    simp only [List.length_cons] at hlength hshorter
    exact (Takes.require hname).bind ((Takes.require hopening).bind
      ((takes_parameters n hparameters hmany hclosing).bind ((Takes.require hclosing).bind
      ((Takes.require hbrace).bind ((takes_blockWith hinner (by omega) hbody).bind
      (Takes.pure _))))))

theorem takes_classDeclarationWith {declaration : Reading (Option Stmt)}
    {statement : Reading Stmt} {bound : Nat}
    (hinner : ReadsSentencesBelow bound declaration statement) {name opening : Token}
    {ts n methods rest n'} (hlength : ts.length ≤ bound) (hname : name.kind = .identifier)
    (hopening : opening.kind = .leftBrace) (h : Methods ts n methods rest n') :
    Takes (classDeclarationWith declaration) (name :: opening :: ts) n (.classDecl name methods)
      rest n' := by
  obtain ⟨closing, hclosing, hseveral⟩ := methods_several h
  rw [classDeclarationWith_eq]
  refine (Takes.require hname).bind ((Takes.require hopening).bind (Takes.bind
    (Takes.repeatUntil takes_atClosingBrace ?_ hseveral (closesBody_cons hclosing))
    ((Takes.require hclosing).bind (Takes.pure _))))
  intro ts' n m rest n' hle hm
  exact ⟨closesBody_of_begins hm.begins (by decide), hm.shorter,
    Takes.map List.singleton (takes_routineWith hinner .method (by omega) hm)⟩

/-! ## 8. Statements and declarations -/

theorem takes_conditionOrTrue (condition : Option Expr) (ts : List Token) (n : Nat) :
    Takes (conditionOrTrue condition) ts n (forCondition n condition).1 ts
      (forCondition n condition).2 := by
  cases condition with
  | some condition => exact Takes.pure condition
  | none => exact Takes.fresh.bind (Takes.pure _)

theorem takes_statementWith {declaration : Reading (Option Stmt)} {statement : Reading Stmt}
    {bound : Nat} (hinner : ReadsSentencesBelow bound declaration statement)
    {d ts n s rest n'} (hlength : ts.length ≤ bound) (h : Statement d ts n s rest n')
    (hstop : d = true → Stops [.elseWord] rest) :
    Takes (statementWith declaration statement) ts n s rest n' := by
  cases h with
  | expr h =>
    exact (Takes.accept?_none (.of_begins h.begins (by decide))).bind (takes_expressionStatement h)
  | print hword h hsemicolon =>
    refine (Takes.accept?_some (by rw [hword]; decide)).bind ?_
    simp only [hword]
    exact (takes_expressionUpTo hsemicolon (by decide) h).bind
      ((Takes.require hsemicolon).bind (Takes.pure _))
  | ret hword h hsemicolon =>
    refine (Takes.accept?_some (by rw [hword]; decide)).bind ?_
    simp only [hword]
    exact (takes_expressionUnless hsemicolon (by decide) (by decide) h).bind
      ((Takes.require hsemicolon).bind (Takes.pure _))
  | block hopening h =>
    refine (Takes.accept?_some (by rw [hopening]; decide)).bind ?_
    simp only [hopening]
    exact Takes.map Stmt.block (takes_blockWith hinner hlength h)
  | loop hword hopening hcondition hclosing hbody =>
    have hshorter := hcondition.shorter
    simp only [List.length_cons] at hlength hshorter
    refine (Takes.accept?_some (by rw [hword]; decide)).bind ?_
    simp only [hword]
    exact (Takes.require hopening).bind ((takes_expressionUpTo hclosing (by decide) hcondition).bind
      ((Takes.require hclosing).bind ((hinner.statements _ _ _ _ _ _ (by omega) hbody hstop).bind
        (Takes.pure _))))
  | @ifThen word opening closing d ts n condition mid n₁ thenBranch rest n' hword hopening
      hcondition hclosing hthen =>
    have hshorter := hcondition.shorter
    simp only [List.length_cons] at hlength hshorter
    refine (Takes.accept?_some (by rw [hword]; decide)).bind ?_
    simp only [hword]
    have hthen' := hinner.statements _ _ _ _ _ _ (by omega) hthen fun _ => hstop rfl
    exact (Takes.require hopening).bind ((takes_expressionUpTo hclosing (by decide) hcondition).bind
      ((Takes.require hclosing).bind (hthen'.bind
        ((Takes.skip?_false (hstop rfl)).bind (Takes.pure _)))))
  | ifElse hword hopening hcondition hclosing hthen helse helseBranch =>
    have hshorter := hcondition.shorter
    have hshorter' := hthen.shorter
    simp only [List.length_cons] at hlength hshorter hshorter'
    refine (Takes.accept?_some (by rw [hword]; decide)).bind ?_
    simp only [hword]
    have hthen' := hinner.statements _ _ _ _ _ _ (by omega) hthen (by simp)
    have helse' := hinner.statements _ _ _ _ _ _ (by omega) helseBranch hstop
    exact (Takes.require hopening).bind ((takes_expressionUpTo hclosing (by decide) hcondition).bind
      ((Takes.require hclosing).bind (hthen'.bind
        ((Takes.skip?_true helse).bind (helse'.bind (Takes.pure _))))))
  | @forLoop word opening closing semicolon d ts n first ts₁ n₁ condition ts₂ n₂ increment ts₃ n₃
      body rest n' hword hopening hfirst hcondition hsemicolon hincrement hclosing hbody =>
    have hshorter := hfirst.shorter
    have hshorter' := hcondition.shorter
    have hshorter'' := hincrement.shorter
    simp only [List.length_cons] at hlength hshorter hshorter' hshorter''
    refine (Takes.accept?_some (by rw [hword]; decide)).bind ?_
    simp only [hword]
    rw [forStatementWith_eq]
    have hbody' := hinner.statements _ _ _ _ _ _ (by omega) hbody hstop
    exact (Takes.require hopening).bind ((takes_forInitializer hfirst).bind
      ((takes_expressionUnless hsemicolon (by decide) (by decide) hcondition).bind
      ((Takes.require hsemicolon).bind
      ((takes_expressionUnless hclosing (by decide) (by decide) hincrement).bind
      ((Takes.require hclosing).bind (hbody'.bind
      ((takes_conditionOrTrue condition rest n').bind (Takes.pure _))))))))

theorem takes_declarationWith {declaration : Reading (Option Stmt)} {statement : Reading Stmt}
    {bound : Nat} (hinner : ReadsSentencesBelow bound declaration statement)
    {ts n s rest n'} (hlength : ts.length ≤ bound) (h : Declaration ts n s rest n')
    (hstop : Stops [.elseWord] rest) :
    Takes (declarationWith declaration (statementWith declaration statement)) ts n (some s)
      rest n' := by
  refine Takes.recovering ?_
  cases h with
  | classDecl hword hname hopening hmethods =>
    simp only [List.length_cons] at hlength
    refine (Takes.accept?_some (by rw [hword]; decide)).bind ?_
    simp only [hword]
    exact takes_classDeclarationWith hinner (by omega) hname hopening hmethods
  | function hword hroutine =>
    simp only [List.length_cons] at hlength
    refine (Takes.accept?_some (by rw [hword]; decide)).bind ?_
    simp only [hword]
    exact Takes.map Stmt.function (takes_routineWith hinner .function (by omega) hroutine)
  | var h =>
    obtain ⟨word, ts, rfl, hword⟩ := h.begins
    have hword' : word.kind = .varWord := by simpa using hword
    refine (Takes.accept?_some (by rw [hword']; decide)).bind ?_
    simp only [hword']
    exact takes_varDeclaration h
  | statement h =>
    exact (Takes.accept?_none (.of_begins h.begins (by decide))).bind
      (takes_statementWith hinner hlength h fun _ => hstop)

/-! ## 9. The knot -/

theorem takes_sentencesAlong (along : List Token) :
    ReadsSentencesBelow (along.length + 2) (declarationAlong along) (statementAlong along) := by
  induction along with
  | nil =>
    have hinner := readsSentencesBelow_one (recovering (fail .tooDeep)) (fail .tooDeep)
    rw [declarationAlong, statementAlong]
    exact ⟨fun _ _ _ _ _ hlength => takes_declarationWith hinner (Nat.le_of_lt_succ hlength),
      fun _ _ _ _ _ _ hlength => takes_statementWith hinner (Nat.le_of_lt_succ hlength)⟩
  | cons _ along ih =>
    rw [declarationAlong, statementAlong]
    exact ⟨fun _ _ _ _ _ hlength => takes_declarationWith ih (Nat.le_of_lt_succ hlength),
      fun _ _ _ _ _ _ hlength => takes_statementWith ih (Nat.le_of_lt_succ hlength)⟩

theorem takes_declaration {ts n s rest n'} (h : Declaration ts n s rest n')
    (hstop : Stops [.elseWord] rest) : Takes declaration ts n (some s) rest n' :=
  (takes_sentencesAlong ts).declarations ts n s rest n' (by omega) h hstop

theorem script_several {ts n statements n'} : Script ts n statements n' →
    Several DeclarationApart ts n statements [] n' ∧ Stops [.elseWord] ts
  | .nil => ⟨.nil, stops_nil _⟩
  | .cons hs hscript => by
      obtain ⟨hseveral, hstop⟩ := script_several hscript
      exact ⟨.cons ⟨hs, hstop⟩ hseveral, .of_begins hs.begins (by decide)⟩

theorem takes_script {ts n statements n'} (h : Script ts n statements n') :
    Takes script ts n statements [] n' := by
  rw [script_eq]
  refine Takes.repeatUntil (fun _ _ => Takes.atEnd) ?_ (script_several h).1 rfl
  rintro ts' n s rest n' - ⟨hs, hstop⟩
  obtain ⟨t, ts', rfl, -⟩ := hs.begins
  exact ⟨rfl, hs.shorter, Takes.map Option.toList (takes_declaration hs hstop)⟩

end ScriptLang.Grammar
