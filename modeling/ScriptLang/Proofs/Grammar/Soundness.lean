/-
ScriptLang.Proofs.Grammar.Soundness — what is read without a fault is a phrase.

For every rule of the reader there is one lemma: if the rule gives a tree and
records no fault, the tokens it used up are a phrase of its sort with this
tree (`Sound` of `Proofs.Grammar.Reader`, with the relations of
`Proofs.Grammar.Phrase`). The rules that refer to the whole grammar are shown
sound under the assumption that the readings they are given are, and the
knots follow by induction on the tokens they go along.

Two places need more than the rule itself.

* An assignment is read as its target first, so the target's tree has to be
  turned back into the tokens it came from (`joined_read`, `joined_property`).
* A statement that could take an `else` has taken it, so after a dangling
  statement no `else` comes next. This is kept beside the phrase.
-/
import ScriptLang.Proofs.Grammar.Phrase
import ScriptLang.Proofs.Grammar.Reader

namespace ScriptLang.Grammar

open Phrase

/-! ## 1. Primaries -/

/-- A primary that is one token. -/
theorem sound_leaf {t : Token} {g : Nat → Expr}
    (h : ∀ ts n, Primary (t :: ts) n (g n) ts (n + 1)) :
    Sound (do pure (g (← fresh))) fun ts n e rest n' => Primary (t :: ts) n e rest n' := by
  refine (Sound.fresh.bind fun id => Sound.pure (g id)).mono ?_
  rintro ts n e rest n' ⟨id, mid, n₁, ⟨rfl, rfl, rfl⟩, rfl, rfl, rfl⟩
  exact h _ _

theorem sound_primaryWith {self : Reading Expr} (hself : Sound self Expression) :
    Sound (primaryWith self) Primary := by
  refine Sound.acceptThen (fun t hmem => ?_) (Sound.fail _)
  dsimp only
  split
  · exact sound_leaf fun _ _ => .falseWord ‹_›
  · exact sound_leaf fun _ _ => .trueWord ‹_›
  · exact sound_leaf fun _ _ => .nilWord ‹_›
  · exact sound_leaf fun _ _ => .self ‹_›
  · exact sound_leaf fun _ _ => .read ‹_›
  · rename_i hopening
    refine (hself.bind fun inner => (Sound.require .rightParen .groupEnd).bind fun _ =>
      Sound.fresh.bind fun id => Sound.pure _).mono ?_
    rintro ts n e rest n' ⟨inner, mid, n₁, hinner, closing, mid', n₂, ⟨rfl, hclosing, rfl⟩, id,
      mid'', n₃, ⟨rfl, rfl, rfl⟩, rfl, rfl, rfl⟩
    exact .group hopening hinner hclosing
  · -- of the kinds that begin a primary, only the two literals are left
    have hliteral : t.kind ∈ [.number, .string] := by simp_all
    exact sound_leaf fun _ _ => .literal hliteral

/-! ## 2. Lists with commas -/

/-- Items with commas between them, read by a reading of single items. -/
inductive Separated {α : Type} (P : Extent α) : Extent (List α) where
  | one {ts n a rest n'} : P ts n a rest n' → Separated P ts n [a] rest n'
  | more {ts n a} {comma : Token} {mid n₁ as rest n'} :
      P ts n a (comma :: mid) n₁ → comma.kind = .comma → Separated P mid n₁ as rest n' →
      Separated P ts n (a :: as) rest n'

/-- The check that there is room for one more item. -/
def checkRoom {α : Type} (list : BoundedList) (items : List α) : Reading Unit :=
  if maxArity ≤ items.length then peek >>= (record · (.tooMany list)) else pure ()

/-- One round of reading a list: the check, an item, and whether a comma follows. -/
def separatedRound {α : Type} (list : BoundedList) (item : Reading α) (items : List α) :
    Reading (List α ⊕ List α) := do
  checkRoom list items
  let a ← item
  let more ← skip? .comma
  pure (if more then Sum.inl (items ++ [a]) else Sum.inr (items ++ [a]))

theorem commaSeparated_eq {α : Type} (list : BoundedList) (item : Reading α) :
    commaSeparated list item = iterate [] (separatedRound list item) := by
  unfold commaSeparated separatedRound
  congr 1
  funext items
  have hround : ∀ a : α, (skip? .comma >>= fun more =>
      if more = true then pure (Sum.inl (items ++ [a])) else pure (Sum.inr (items ++ [a]))
        : Reading (List α ⊕ List α))
      = skip? .comma >>= fun more =>
        pure (if more = true then Sum.inl (items ++ [a]) else Sum.inr (items ++ [a])) := by
    intro a
    congr 1
    funext more
    cases more <;> rfl
  by_cases hmany : maxArity ≤ items.length
  · simp only [checkRoom, hmany, if_true, hround, bind_assoc]
  · simp only [checkRoom, hmany, if_false, hround, pure_bind]

/-- A check that fails records a fault, so without a fault it has not failed. -/
theorem sound_checkRoom {α : Type} (list : BoundedList) (items : List α) :
    Sound (checkRoom list items) fun ts n _ rest n' =>
      items.length < maxArity ∧ rest = ts ∧ n' = n := by
  unfold checkRoom
  by_cases hmany : maxArity ≤ items.length
  · simp only [hmany, if_true]
    refine (Sound.peek.bind fun t => Sound.record t _).mono ?_
    rintro ts n _ rest n' ⟨t, mid, n₁, -, hfalse⟩
    exact hfalse.elim
  · simp only [hmany, if_false]
    refine (Sound.pure ()).mono ?_
    rintro ts n _ rest n' ⟨-, rfl, rfl⟩
    exact ⟨by omega, rfl, rfl⟩

theorem sound_commaSeparated {α : Type} {list : BoundedList} {item : Reading α} {P : Extent α}
    (hitem : Sound item P) :
    Sound (commaSeparated list item) fun ts n as rest n' =>
      Separated P ts n as rest n' ∧ as.length ≤ maxArity := by
  rw [commaSeparated_eq]
  refine (Sound.iterate (T := fun items ts n as rest n' => ∃ more, as = items ++ more ∧
    Separated P ts n more rest n' ∧ as.length ≤ maxArity) (fun items => ?_) []).mono ?_
  · refine ((sound_checkRoom list items).bind fun _ => hitem.bind fun a => (Sound.skip? .comma).bind fun b =>
      Sound.pure _).mono ?_
    rintro ts n r rest n' ⟨-, mid, n₁, ⟨hlt, rfl, rfl⟩, a, mid', n₂, ha, b, mid'', n₃, ⟨rfl, hb⟩,
      rfl, rfl, rfl⟩
    cases b with
    | false =>
      obtain ⟨rfl, -⟩ := hb
      exact ⟨[a], rfl, .one ha, by simp; omega⟩
    | true =>
      obtain ⟨comma, rfl, hcomma⟩ := hb
      rintro as last n'' ⟨more, rfl, hmore, hlength⟩
      exact ⟨a :: more, by simp, .more ha hcomma hmore, by simpa using hlength⟩
  · rintro ts n as rest n' ⟨more, rfl, hmore, hlength⟩
    exact ⟨hmore, hlength⟩

theorem moreArguments_of_separated {ts n es rest n'} {comma : Token}
    (hcomma : comma.kind = .comma) (h : Separated Expression ts n es rest n') :
    MoreArguments (comma :: ts) n es rest n' := by
  induction h generalizing comma with
  | one h => exact .more hcomma h .done
  | more h hcomma' _ ih => exact .more hcomma h (ih hcomma')

theorem arguments_of_separated {ts n es rest n'} (h : Separated Expression ts n es rest n') :
    Arguments ts n es rest n' := by
  cases h with
  | one h => exact .some h .done
  | more h hcomma hmore => exact .some h (moreArguments_of_separated hcomma hmore)

theorem parameters_of_separated {ts n names rest n'}
    (h : Separated (fun ts n (t : Token) rest n' => ts = t :: rest ∧ t.kind = .identifier ∧ n' = n)
      ts n names rest n') : Parameters ts names rest ∧ n' = n ∧ names ≠ [] := by
  induction h with
  | one h =>
    obtain ⟨rfl, hname, rfl⟩ := h
    exact ⟨.one hname, rfl, by simp⟩
  | @more ts n name comma mid n₁ names rest n' h hcomma hmore ih =>
    obtain ⟨rfl, hname, rfl⟩ := h
    obtain ⟨hrest, rfl, hne⟩ := ih
    cases names with
    | nil => exact absurd rfl hne
    | cons next names => exact ⟨.more hname hcomma hrest, rfl, by simp⟩

/-! ## 3. Calls and unary operators -/

theorem finishCallWith_eq (self : Reading Expr) (callee : Expr) :
    finishCallWith self callee = (do
      let arguments ← unlessNext .rightParen (commaSeparated .arguments self)
      let paren ← require .rightParen .argumentsEnd
      pure (.call (← fresh) callee paren arguments)) := by
  unfold finishCallWith unlessNext
  rw [bind_assoc]
  congr 1
  funext b
  cases b <;> rfl

theorem sound_finishCallWith {self : Reading Expr} (hself : Sound self Expression)
    (callee : Expr) : Sound (finishCallWith self callee) fun ts n e rest n' =>
      ∃ arguments paren n₁, Arguments ts n arguments (paren :: rest) n₁ ∧
        arguments.length ≤ maxArity ∧ paren.kind = .rightParen ∧
        e = .call n₁ callee paren arguments ∧ n' = n₁ + 1 := by
  rw [finishCallWith_eq]
  refine ((Sound.unlessNext (sound_commaSeparated hself)).bind fun arguments =>
    (Sound.require .rightParen .argumentsEnd).bind fun paren =>
    Sound.fresh.bind fun id => Sound.pure _).mono ?_
  rintro ts n e rest n' ⟨arguments, mid, n₁, hargs, paren, mid', n₂, ⟨rfl, hparen, rfl⟩, id, last,
    n₃, ⟨rfl, rfl, rfl⟩, rfl, rfl, rfl⟩
  refine ⟨arguments, paren, _, ?_, ?_, hparen, rfl, rfl⟩
  · rcases hargs with ⟨rfl, rfl, rfl⟩ | ⟨hargs, -⟩
    · exact .none
    · exact arguments_of_separated hargs
  · rcases hargs with ⟨rfl, rfl, rfl⟩ | ⟨-, hlength⟩
    · exact Nat.zero_le _
    · exact hlength

theorem sound_callWith {self : Reading Expr} (hself : Sound self Expression) :
    Sound (callWith self) Call := by
  refine Sound.mono ((sound_primaryWith hself).bind fun callee =>
    Sound.iterate (T := fun callee => Calls callee) (fun callee => ?_) callee) ?_
  · refine Sound.acceptThen (fun t hmem => ?_) ?_
    · by_cases hkind : t.kind = .leftParen
      · simp only [hkind, if_true]
        refine ((sound_finishCallWith hself callee).bind fun e => Sound.pure _).mono ?_
        rintro ts n r rest n' ⟨e, mid, n₁, ⟨arguments, paren, n₂, hargs, hlength, hparen, rfl,
          rfl⟩, rfl, rfl, rfl⟩
        exact fun e' last n'' h => .call hkind hargs hlength hparen h
      · have hdot : t.kind = .dot := by simpa [hkind] using hmem
        simp only [hkind, if_false]
        refine ((Sound.require .identifier .propertyName).bind fun name =>
          Sound.fresh.bind fun id => Sound.pure _).mono ?_
        rintro ts n r rest n' ⟨name, mid, n₁, ⟨rfl, hname, rfl⟩, id, mid', n₂, ⟨rfl, rfl, rfl⟩,
          rfl, rfl, rfl⟩
        exact fun e' last n'' h => .property hdot hname h
    · refine (Sound.pure _).mono ?_
      rintro ts n r rest n' ⟨rfl, rfl, rfl⟩ -
      exact .done
  · rintro ts n e rest n' ⟨callee, mid, n₁, hprimary, hcalls⟩
    exact .mk hprimary hcalls

theorem sound_unaryOperators : Sound unaryOperators fun ts n ops rest n' =>
    ts = ops ++ rest ∧ (∀ op ∈ ops, op.kind ∈ [.bang, .minus]) ∧ n' = n := by
  intro s
  refine ⟨.of_le (Nat.le_refl _) rfl, fun _ => ⟨?_, ?_, rfl⟩⟩
  · exact List.takeWhile_append_dropWhile.symm
  · intro op hop
    exact of_decide_eq_true (List.all_eq_true.mp List.all_takeWhile op hop)

/-- The operators before an operand wrap its tree from the inside out. -/
theorem sound_wrapOperators (operand : Expr) : ∀ ops : List Token,
    Sound (ops.foldrM (fun op operand => do pure (.unary (← fresh) op operand)) operand)
      fun ts n e rest n' => rest = ts ∧
        ((∀ op ∈ ops, op.kind ∈ [.bang, .minus]) →
          ∀ front n₀, Unary front n₀ operand ts n → Unary (ops ++ front) n₀ e ts n')
  | [] => by
      refine (Sound.pure operand).mono ?_
      rintro ts n e rest n' ⟨rfl, rfl, rfl⟩
      exact ⟨rfl, fun _ front n₀ h => h⟩
  | op :: ops => by
      rw [List.foldrM_cons]
      refine ((sound_wrapOperators operand ops).bind fun inner =>
        Sound.fresh.bind fun id => Sound.pure _).mono ?_
      rintro ts n e rest n' ⟨inner, mid, n₁, ⟨rfl, hinner⟩, id, mid', n₂, ⟨rfl, rfl, rfl⟩, rfl, rfl,
        rfl⟩
      refine ⟨rfl, fun hops front n₀ h => .operator (hops op (List.mem_cons_self ..)) ?_⟩
      exact hinner (fun op' hop' => hops op' (List.mem_cons_of_mem _ hop')) front n₀ h

theorem sound_unaryWith {self : Reading Expr} (hself : Sound self Expression) :
    Sound (unaryWith self) Unary := by
  refine (sound_unaryOperators.bind fun ops => (sound_callWith hself).bind fun operand =>
    sound_wrapOperators operand ops).mono ?_
  rintro ts n e rest n' ⟨ops, mid, n₁, ⟨rfl, hops, rfl⟩, operand, mid', n₂, hcall, rfl, hwrap⟩
  exact hwrap hops mid _ (.call hcall)

/-! ## 4. Binary operators -/

theorem sound_leftJoined {level : Level} {tighter : List Level} {operand : Reading Expr}
    (hoperand : Sound operand (Joined tighter)) :
    Sound (leftJoined level operand) (Joined (level :: tighter)) := by
  refine Sound.mono (hoperand.bind fun left =>
    Sound.iterate (T := fun left => More level tighter left) (fun left => ?_) left) ?_
  · refine Sound.acceptThen (fun op hop => ?_) ?_
    · refine (hoperand.bind fun right => Sound.fresh.bind fun id => Sound.pure _).mono ?_
      rintro ts n r rest n' ⟨right, mid, n₁, hright, id, mid', n₂, ⟨rfl, rfl, rfl⟩, rfl, rfl, rfl⟩
      exact fun e' last n'' h => .more hop hright h
    · refine (Sound.pure _).mono ?_
      rintro ts n r rest n' ⟨rfl, rfl, rfl⟩ -
      exact .done
  · rintro ts n e rest n' ⟨left, mid, n₁, hleft, hmore⟩
    exact .level hleft hmore

theorem sound_binaryFrom {operand : Reading Expr} (hoperand : Sound operand Unary) :
    ∀ ls : List Level, Sound (binaryFrom operand ls) (Joined ls)
  | [] => hoperand.mono fun _ _ _ _ _ h => .operand h
  | _ :: tighter => sound_leftJoined (sound_binaryFrom hoperand tighter)

/-! ## 5. Assignments -/

/-- The levels build operator trees, so any other tree is that of a single operand. -/
def Level.BuildsOperator (level : Level) : Prop :=
  ∀ id left op right, level.build id left op right = .logical id left op right ∨
    level.build id left op right = .binary id left op right

theorem levels_buildOperator : ∀ level ∈ levels, level.BuildsOperator := by
  intro level hmem id left op right
  simp only [levels, List.mem_cons, List.not_mem_nil, or_false] at hmem
  rcases hmem with rfl | rfl | rfl | rfl | rfl | rfl <;> simp

/-- Whether a tree is that of a binary or logical operator. -/
def isOperation : Expr → Bool
  | .binary .. => true
  | .logical .. => true
  | _ => false

theorem isOperation_build {level : Level} (h : level.BuildsOperator) (id : Nat) (left : Expr)
    (op : Token) (right : Expr) : isOperation (level.build id left op right) = true := by
  rcases h id left op right with hb | hb <;> rw [hb] <;> rfl

/-- After an operator has been read the tree is that of an operator. -/
theorem Phrase.More.eq_or_isOperation {level tighter left ts n e rest n'} :
    level.BuildsOperator → More level tighter left ts n e rest n' →
      (e = left ∧ rest = ts ∧ n' = n) ∨ isOperation e = true
  | _, .done => .inl ⟨rfl, rfl, rfl⟩
  | hlevel, .more _ _ hmore => by
      rcases More.eq_or_isOperation hlevel hmore with ⟨rfl, -, -⟩ | hjoined
      · exact .inr (isOperation_build hlevel _ _ _ _)
      · exact .inr hjoined

/-- A tree that is not that of an operator was read as a single operand. -/
theorem Phrase.Joined.unary {ls ts n e rest n'} (hjoined : isOperation e = false) :
    (∀ level ∈ ls, level.BuildsOperator) → Joined ls ts n e rest n' → Unary ts n e rest n'
  | _, .operand h => h
  | hls, .level hleft hmore => by
      rcases More.eq_or_isOperation (hls _ (List.mem_cons_self ..)) hmore with
        ⟨rfl, rfl, rfl⟩ | hop
      · exact Joined.unary hjoined (fun l hl => hls l (List.mem_cons_of_mem _ hl)) hleft
      · rw [hop] at hjoined
        exact absurd hjoined (by simp)

/-- What comes after a callee wraps it in calls and properties, so a variable stands alone. -/
theorem Phrase.Calls.of_read {callee ts n e rest n' id name} (he : e = .read id name) :
    Calls callee ts n e rest n' → callee = e ∧ rest = ts ∧ n' = n
  | .done => ⟨rfl, rfl, rfl⟩
  | .call _ _ _ _ h => by
      have := (Calls.of_read he h).1
      simp [he] at this
  | .property _ _ h => by
      have := (Calls.of_read he h).1
      simp [he] at this

/-- A property at the end of a call was read as its last suffix. -/
theorem Phrase.Calls.last_property {callee ts n e rest n' id object name}
    (he : e = .property id object name) : Calls callee ts n e rest n' →
      (callee = e ∧ rest = ts ∧ n' = n) ∨
      ∃ dot : Token, Calls callee ts n object (dot :: name :: rest) id ∧ dot.kind = .dot ∧
        name.kind = .identifier ∧ n' = id + 1
  | .done => .inl ⟨rfl, rfl, rfl⟩
  | .call hopening hargs hlength hparen h => by
      rcases Calls.last_property he h with ⟨hcall, -, -⟩ | ⟨dot, hcalls, hdot, hname, rfl⟩
      · simp [he] at hcall
      · exact .inr ⟨dot, .call hopening hargs hlength hparen hcalls, hdot, hname, rfl⟩
  | .property hdot' hname' h => by
      rcases Calls.last_property he h with ⟨heq, rfl, rfl⟩ | ⟨dot, hcalls, hdot, hname, rfl⟩
      · rw [he] at heq
        injection heq with hid hobject hname
        subst hid hobject hname
        exact .inr ⟨_, .done, hdot', hname', rfl⟩
      · exact .inr ⟨dot, .property hdot' hname' hcalls, hdot, hname, rfl⟩

/-- A target that is a variable was read from one identifier. -/
theorem joined_read {ts n id name rest n'} (h : Joined levels ts n (.read id name) rest n') :
    ts = name :: rest ∧ name.kind = .identifier ∧ n' = n + 1 := by
  cases h.unary rfl levels_buildOperator with
  | call hcall =>
    obtain ⟨hprimary, hcalls⟩ := hcall
    obtain ⟨rfl, rfl, rfl⟩ := Calls.of_read rfl hcalls
    cases hprimary with
    | read hname => exact ⟨rfl, hname, rfl⟩

/-- A target that is a property was read from a call, a dot and an identifier. -/
theorem joined_property {ts n id object name rest n'}
    (h : Joined levels ts n (.property id object name) rest n') :
    ∃ dot : Token, Call ts n object (dot :: name :: rest) id ∧ dot.kind = .dot ∧
      name.kind = .identifier ∧ n' = id + 1 := by
  cases h.unary rfl levels_buildOperator with
  | call hcall =>
    obtain ⟨hprimary, hcalls⟩ := hcall
    rcases Calls.last_property rfl hcalls with ⟨rfl, rfl, rfl⟩ | ⟨dot, hobject, hdot, hname, rfl⟩
    · cases hprimary
    · exact ⟨dot, .mk hprimary hobject, hdot, hname, rfl⟩

theorem sound_assignmentWith {self : Reading Expr} (hself : Sound self Expression) :
    Sound (assignmentWith self) Expression := by
  refine Sound.mono (Sound.bind (Q := fun target ts n e rest n' =>
      ∀ front n₀, Joined levels front n₀ target ts n → Expression front n₀ e rest n')
    (sound_binaryFrom (sound_unaryWith hself) levels)
    fun target => Sound.acceptThen (fun equals hmem => ?_) ?_) ?_
  · have hequals : equals.kind = .equal := by simpa using hmem
    refine Sound.mono (hself.bind (Q := fun value ts n e rest n' => ∀ front n₀ mid n₁,
      Joined levels front n₀ target (equals :: mid) n₁ → Expression mid n₁ value ts n →
        Expression front n₀ e rest n') fun value => ?_) ?_
    · split
      · refine (Sound.fresh.bind fun id => Sound.pure _).mono ?_
        rintro ts n e rest n' ⟨id, _, _, ⟨rfl, rfl, rfl⟩, rfl, rfl, rfl⟩ front n₀ mid n₁ htarget
          hvalue
        obtain ⟨rfl, hname, rfl⟩ := joined_read htarget
        exact .assign hname hequals hvalue
      · refine (Sound.fresh.bind fun id => Sound.pure _).mono ?_
        rintro ts n e rest n' ⟨id, _, _, ⟨rfl, rfl, rfl⟩, rfl, rfl, rfl⟩ front n₀ mid n₁ htarget
          hvalue
        obtain ⟨dot, hcall, hdot, hname, rfl⟩ := joined_property htarget
        exact .setProperty hcall hdot hname hequals hvalue
      · refine ((Sound.record equals .assignmentTarget).bind fun _ => Sound.pure target).mono ?_
        rintro ts n e rest n' ⟨-, mid, n₁, hfalse, -⟩
        exact hfalse.elim
    · rintro ts n e rest n' ⟨value, mid, n₁, hvalue, hresult⟩ front n₀ htarget
      exact hresult front n₀ ts n htarget hvalue
  · refine (Sound.pure target).mono ?_
    rintro ts n e rest n' ⟨rfl, rfl, rfl⟩ - front n₀ htarget
    exact .plain htarget
  · rintro ts n e rest n' ⟨target, mid, n₁, htarget, hresult⟩
    exact hresult ts n htarget

theorem sound_expressionAlong : ∀ along : List Token, Sound (expressionAlong along) Expression
  | [] => sound_assignmentWith (Sound.fail .tooDeep)
  | _ :: along => sound_assignmentWith (sound_expressionAlong along)

theorem sound_expression : Sound expression Expression :=
  fun s => sound_expressionAlong s.ahead s

/-! ## 6. Statements without statements in them -/

/-- What has been read after a word of a kind. -/
def After {α : Type} (kind : Kind) (P : Extent α) : Extent α :=
  fun ts n a rest n' => ∀ word : Token, word.kind = kind → P (word :: ts) n a rest n'

theorem sound_expressionUnless (kind : Kind) : Sound (expressionUnless kind) Optional := by
  refine Sound.mono (Sound.bind (Q := fun _ => Optional) (Sound.next? kind) fun b => ?_) ?_
  · cases b with
    | true =>
      refine (Sound.pure none).mono ?_
      rintro ts n e rest n' ⟨rfl, rfl, rfl⟩
      exact .none
    | false =>
      refine (Sound.map some sound_expression).mono ?_
      rintro ts n o rest n' ⟨e, rfl, h⟩
      exact .some h
  · rintro ts n e rest n' ⟨b, mid, n₁, ⟨-, rfl, rfl⟩, h⟩
    exact h

/-- The value after an equals sign, if there is one. -/
def initialValue : Reading (Option Expr) := do
  if ← skip? .equal then some <$> expression else pure none

theorem varDeclaration_eq : varDeclaration = (do
    let name ← require .identifier .variableName
    let initializer ← initialValue
    let _ ← require .semicolon .variableEnd
    pure (.var name initializer)) := by
  unfold varDeclaration initialValue
  congr 1
  funext name
  rw [bind_assoc]
  congr 1
  funext b
  cases b <;> rfl

theorem sound_initialValue : Sound initialValue fun ts n o rest n' => match o with
    | none => rest = ts ∧ n' = n
    | some e => ∃ (equals : Token) (mid : List Token),
        ts = equals :: mid ∧ equals.kind = .equal ∧ Expression mid n e rest n' := by
  refine Sound.skipThen (fun equals hequals => ?_) ?_
  · refine (Sound.map some sound_expression).mono ?_
    rintro ts n o rest n' ⟨e, rfl, h⟩
    exact ⟨equals, ts, rfl, hequals, h⟩
  · refine (Sound.pure none).mono ?_
    rintro ts n o rest n' ⟨rfl, rfl, rfl⟩ -
    exact ⟨rfl, rfl⟩

theorem sound_varDeclaration : Sound varDeclaration (After .varWord VarDecl) := by
  rw [varDeclaration_eq]
  refine ((Sound.require .identifier .variableName).bind fun name =>
    sound_initialValue.bind fun initializer =>
    (Sound.require .semicolon .variableEnd).bind fun _ => Sound.pure _).mono ?_
  rintro ts n s rest n' ⟨name, mid, n₁, ⟨rfl, hname, rfl⟩, initializer, mid', n₂, hinit, semicolon,
    mid'', n₃, ⟨rfl, hsemicolon, rfl⟩, rfl, rfl, rfl⟩ word hword
  cases initializer with
  | none =>
    obtain ⟨rfl, rfl⟩ := hinit
    exact .bare hword hname hsemicolon
  | some e =>
    obtain ⟨equals, mid, rfl, hequals, h⟩ := hinit
    exact .initialized hword hname hequals h hsemicolon

theorem sound_expressionStatement : Sound expressionStatement ExprStmt := by
  refine (sound_expression.bind fun value =>
    (Sound.require .semicolon .expressionEnd).bind fun _ => Sound.pure _).mono ?_
  rintro ts n s rest n' ⟨e, mid, n₁, h, semicolon, mid', n₂, ⟨rfl, hsemicolon, rfl⟩, rfl, rfl, rfl⟩
  exact .mk h hsemicolon

theorem sound_forInitializer : Sound forInitializer ForFirst := by
  refine Sound.skipThen (fun semicolon hsemicolon => ?_) ?_
  · refine (Sound.pure none).mono ?_
    rintro ts n o rest n' ⟨rfl, rfl, rfl⟩
    exact .none hsemicolon
  · refine Sound.mono (P := ForFirst) (Sound.skipThen (fun word hword => ?_) ?_)
      fun _ _ _ _ _ h _ => h
    · refine (Sound.map some sound_varDeclaration).mono ?_
      rintro ts n o rest n' ⟨s, rfl, hs⟩
      exact .var (hs word hword)
    · refine (Sound.map some sound_expressionStatement).mono ?_
      rintro ts n o rest n' ⟨s, rfl, hs⟩ -
      exact .expr hs

/-! ## 7. Blocks, routines and classes -/

/-- A declaration that was not left out because of a fault. -/
def ReadDeclaration : Extent (Option Stmt) :=
  fun ts n o rest n' => ∃ s, o = some s ∧ Declaration ts n s rest n'

/-- A declaration as a list with one item. -/
theorem Sound.toList {declaration : Reading (Option Stmt)} (h : Sound declaration ReadDeclaration) :
    Sound (Option.toList <$> declaration) fun ts n as rest n' =>
      ∃ s, as = [s] ∧ Declaration ts n s rest n' := by
  refine (Sound.map Option.toList h).mono ?_
  rintro ts n as rest n' ⟨o, rfl, s, rfl, hs⟩
  exact ⟨s, rfl, hs⟩

/-- Whether a block or the body of a class is over. -/
def atClosingBrace : Reading Bool := do
  pure ((← next? .rightBrace) || (← atEnd))

/-- Whether the tokens of a block or of the body of a class are over. -/
def closesBody (ts : List Token) : Bool :=
  ts.head?.any (·.kind = .rightBrace) || ts.isEmpty

theorem sound_atClosingBrace : Sound atClosingBrace fun ts n b rest n' =>
    b = closesBody ts ∧ rest = ts ∧ n' = n := by
  refine ((Sound.next? .rightBrace).bind fun b => Sound.atEnd.bind fun b' => Sound.pure _).mono ?_
  rintro ts n b rest n' ⟨b, mid, n₁, ⟨rfl, rfl, rfl⟩, b', mid', n₂, ⟨rfl, rfl, rfl⟩, rfl, rfl, rfl⟩
  exact ⟨rfl, rfl, rfl⟩

theorem blockWith_eq (declaration : Reading (Option Stmt)) :
    blockWith declaration = (do
      let body ← repeatUntil atClosingBrace (Option.toList <$> declaration)
      let _ ← require .rightBrace .blockEnd
      pure body) := by
  unfold blockWith repeatUntil repeatRound atClosingBrace
  simp only [bind_assoc, pure_bind, bind_map_left]

theorem block_of_several {ts n body n'} {closing : Token} {rest : List Token}
    (hclosing : closing.kind = .rightBrace) (h : Several Declaration ts n body (closing :: rest) n') :
    Block ts n body rest n' := by
  generalize hlast : closing :: rest = last at h
  induction h with
  | nil => subst hlast; exact .close hclosing
  | cons hs _ ih => exact .cons hs (ih hlast)

theorem sound_blockWith {declaration : Reading (Option Stmt)}
    (hdeclaration : Sound declaration ReadDeclaration) :
    Sound (blockWith declaration) Block := by
  rw [blockWith_eq]
  refine ((Sound.repeatUntil sound_atClosingBrace hdeclaration.toList).bind fun body =>
    (Sound.require .rightBrace .blockEnd).bind fun _ => Sound.pure _).mono ?_
  rintro ts n body rest n' ⟨body', mid, n₁, ⟨hseveral, -⟩, closing, mid', n₂, ⟨rfl, hclosing, rfl⟩,
    rfl, rfl, rfl⟩
  exact block_of_several hclosing hseveral

theorem routineWith_eq (declaration : Reading (Option Stmt)) (role : RoutineRole) :
    routineWith declaration role = (do
      let name ← require .identifier (.routineName role)
      let _ ← require .leftParen (.parametersStart role)
      let parameters ← unlessNext .rightParen
        (commaSeparated .parameters (require .identifier .parameterName))
      let _ ← require .rightParen .parametersEnd
      let _ ← require .leftBrace (.routineBodyStart role)
      let body ← blockWith declaration
      pure ⟨name, parameters, body⟩) := by
  unfold routineWith unlessNext
  congr 1
  funext name
  congr 1
  funext _
  rw [bind_assoc]
  congr 1
  funext b
  cases b <;> rfl

theorem sound_routineWith {declaration : Reading (Option Stmt)}
    (hdeclaration : Sound declaration ReadDeclaration) (role : RoutineRole) :
    Sound (routineWith declaration role) Function := by
  rw [routineWith_eq]
  refine ((Sound.require .identifier (.routineName role)).bind fun name =>
    (Sound.require .leftParen (.parametersStart role)).bind fun _ =>
    (Sound.unlessNext (sound_commaSeparated (Sound.require .identifier .parameterName))).bind
      fun parameters =>
    (Sound.require .rightParen .parametersEnd).bind fun _ =>
    (Sound.require .leftBrace (.routineBodyStart role)).bind fun _ =>
    (sound_blockWith hdeclaration).bind fun body => Sound.pure _).mono ?_
  rintro ts n r rest n' ⟨name, ts₁, n₁, ⟨rfl, hname, rfl⟩, opening, ts₂, n₂, ⟨rfl, hopening, rfl⟩,
    parameters, ts₃, n₃, hparameters, closing, ts₄, n₄, ⟨rfl, hclosing, rfl⟩, brace, ts₅, n₅,
    ⟨rfl, hbrace, rfl⟩, body, ts₆, n₆, hbody, rfl, rfl, rfl⟩
  rcases hparameters with ⟨rfl, rfl, rfl⟩ | ⟨hseparated, hlength⟩
  · exact .mk hname hopening .none (Nat.zero_le _) hclosing hbrace hbody
  · obtain ⟨hnames, rfl, -⟩ := parameters_of_separated hseparated
    exact .mk hname hopening hnames hlength hclosing hbrace hbody

theorem classDeclarationWith_eq (declaration : Reading (Option Stmt)) :
    classDeclarationWith declaration = (do
      let name ← require .identifier .className
      let _ ← require .leftBrace .classBodyStart
      let methods ← repeatUntil atClosingBrace (List.singleton <$> routineWith declaration .method)
      let _ ← require .rightBrace .classBodyEnd
      pure (.classDecl name methods)) := by
  unfold classDeclarationWith repeatUntil repeatRound atClosingBrace
  simp only [bind_assoc, pure_bind, bind_map_left]
  rfl

theorem methods_of_several {ts n methods n'} {closing : Token} {rest : List Token}
    (hclosing : closing.kind = .rightBrace)
    (h : Several Function ts n methods (closing :: rest) n') : Methods ts n methods rest n' := by
  generalize hlast : closing :: rest = last at h
  induction h with
  | nil => subst hlast; exact .close hclosing
  | cons hm _ ih => exact .cons hm (ih hlast)

theorem sound_classDeclarationWith {declaration : Reading (Option Stmt)}
    (hdeclaration : Sound declaration ReadDeclaration) :
    Sound (classDeclarationWith declaration) (After .classWord Declaration) := by
  rw [classDeclarationWith_eq]
  have hitem : Sound (List.singleton <$> routineWith declaration .method) fun ts n as rest n' =>
      ∃ m, as = [m] ∧ Function ts n m rest n' := by
    refine (Sound.map List.singleton (sound_routineWith hdeclaration .method)).mono ?_
    rintro ts n as rest n' ⟨m, rfl, hm⟩
    exact ⟨m, rfl, hm⟩
  refine ((Sound.require .identifier .className).bind fun name =>
    (Sound.require .leftBrace .classBodyStart).bind fun _ =>
    (Sound.repeatUntil sound_atClosingBrace hitem).bind fun methods =>
    (Sound.require .rightBrace .classBodyEnd).bind fun _ => Sound.pure _).mono ?_
  rintro ts n s rest n' ⟨name, ts₁, n₁, ⟨rfl, hname, rfl⟩, opening, ts₂, n₂, ⟨rfl, hopening, rfl⟩,
    methods, ts₃, n₃, ⟨hseveral, -⟩, closing, ts₄, n₄, ⟨rfl, hclosing, rfl⟩, rfl, rfl, rfl⟩
    word hword
  exact .classDecl hword hname hopening (methods_of_several hclosing hseveral)

/-! ## 8. Statements and declarations -/

/-- A statement that has taken every `else` it could take. -/
def ReadStatement : Extent Stmt :=
  fun ts n s rest n' => ∃ d, Statement d ts n s rest n' ∧ (d = true → Stops [.elseWord] rest)

/-- A statement that cannot take an `else`. -/
theorem ReadStatement.closed {ts n s rest n'} (h : Statement false ts n s rest n') :
    ReadStatement ts n s rest n' :=
  ⟨false, h, fun hfalse => absurd hfalse (by simp)⟩

theorem sound_printStatement : Sound printStatement (After .printWord ReadStatement) := by
  refine (sound_expression.bind fun value =>
    (Sound.require .semicolon .printEnd).bind fun _ => Sound.pure _).mono ?_
  rintro ts n s rest n' ⟨e, mid, n₁, h, semicolon, mid', n₂, ⟨rfl, hsemicolon, rfl⟩, rfl, rfl, rfl⟩
    word hword
  exact .closed (.print hword h hsemicolon)

theorem sound_returnStatement (word : Token) : Sound (returnStatement word) fun ts n s rest n' =>
    word.kind = .returnWord → ReadStatement (word :: ts) n s rest n' := by
  refine ((sound_expressionUnless .semicolon).bind fun value =>
    (Sound.require .semicolon .returnEnd).bind fun _ => Sound.pure _).mono ?_
  rintro ts n s rest n' ⟨e, mid, n₁, h, semicolon, mid', n₂, ⟨rfl, hsemicolon, rfl⟩, rfl, rfl, rfl⟩
    hword
  exact .closed (.ret hword h hsemicolon)

/-- The condition of a `for` loop, made up if it was left out. -/
def conditionOrTrue (condition : Option Expr) : Reading Expr :=
  match condition with
  | some condition => pure condition
  | none => do pure (.literal (← fresh) (.bool true))

theorem forStatementWith_eq (statement : Reading Stmt) :
    forStatementWith statement = (do
      let _ ← require .leftParen .forStart
      let initializer ← forInitializer
      let condition ← expressionUnless .semicolon
      let _ ← require .semicolon .forConditionEnd
      let increment ← expressionUnless .rightParen
      let _ ← require .rightParen .forClausesEnd
      let body ← statement
      let condition ← conditionOrTrue condition
      pure (forLoop initializer condition increment body)) := by
  unfold forStatementWith
  iterate 2 (congr 1; funext _)
  congr 1
  funext condition
  iterate 4 (congr 1; funext _)
  cases condition <;> rfl

theorem sound_conditionOrTrue (condition : Option Expr) :
    Sound (conditionOrTrue condition) fun ts n e rest n' =>
      rest = ts ∧ e = (forCondition n condition).1 ∧ n' = (forCondition n condition).2 := by
  cases condition with
  | some condition =>
    refine (Sound.pure condition).mono ?_
    rintro ts n e rest n' ⟨rfl, rfl, rfl⟩
    exact ⟨rfl, rfl, rfl⟩
  | none =>
    refine (Sound.fresh.bind fun id => Sound.pure _).mono ?_
    rintro ts n e rest n' ⟨id, mid, n₁, ⟨rfl, rfl, rfl⟩, rfl, rfl, rfl⟩
    exact ⟨rfl, rfl, rfl⟩

theorem sound_forStatementWith {statement : Reading Stmt}
    (hstatement : Sound statement ReadStatement) :
    Sound (forStatementWith statement) (After .forWord ReadStatement) := by
  rw [forStatementWith_eq]
  refine ((Sound.require .leftParen .forStart).bind fun _ =>
    sound_forInitializer.bind fun initializer =>
    (sound_expressionUnless .semicolon).bind fun condition =>
    (Sound.require .semicolon .forConditionEnd).bind fun _ =>
    (sound_expressionUnless .rightParen).bind fun increment =>
    (Sound.require .rightParen .forClausesEnd).bind fun _ =>
    hstatement.bind fun body => (sound_conditionOrTrue condition).bind fun _ =>
    Sound.pure _).mono ?_
  rintro ts n s rest n' ⟨opening, ts₁, n₁, ⟨rfl, hopening, rfl⟩, initializer, ts₂, n₂, hfirst,
    condition, ts₃, n₃, hcondition, semicolon, ts₄, n₄, ⟨rfl, hsemicolon, rfl⟩, increment, ts₅, n₅,
    hincrement, closing, ts₆, n₆, ⟨rfl, hclosing, rfl⟩, body, ts₇, n₇, ⟨d, hbody, hstops⟩,
    condition', ts₈, n₈, ⟨rfl, rfl, rfl⟩, rfl, rfl, rfl⟩ word hword
  exact ⟨d, .forLoop hword hopening hfirst hcondition hsemicolon hincrement hclosing hbody, hstops⟩

/-- What comes after the first branch of an `if`. -/
def AfterThen (condition : Expr) (thenBranch : Stmt) : Extent Stmt :=
  fun ts n s rest n' =>
    (∃ (elseWord : Token) (mid : List Token) (elseBranch : Stmt), ts = elseWord :: mid ∧
      elseWord.kind = .elseWord ∧ s = .ifElse condition thenBranch elseBranch ∧
      ReadStatement mid n elseBranch rest n') ∨
    (s = .ifThen condition thenBranch ∧ rest = ts ∧ n' = n ∧ Stops [.elseWord] ts)

theorem sound_ifStatementWith {statement : Reading Stmt}
    (hstatement : Sound statement ReadStatement) :
    Sound (ifStatementWith statement) (After .ifWord ReadStatement) := by
  refine Sound.mono ((Sound.require .leftParen .ifStart).bind fun _ =>
    sound_expression.bind fun condition =>
    (Sound.require .rightParen .ifConditionEnd).bind fun _ =>
    hstatement.bind fun thenBranch => Sound.skipThen (P := AfterThen condition thenBranch)
      (fun elseWord helse => ?_) ?_) ?_
  · refine (hstatement.bind fun elseBranch => Sound.pure _).mono ?_
    rintro ts n s rest n' ⟨elseBranch, mid, n₁, h, rfl, rfl, rfl⟩
    exact .inl ⟨elseWord, ts, elseBranch, rfl, helse, rfl, h⟩
  · refine (Sound.pure _).mono ?_
    rintro ts n s rest n' ⟨rfl, rfl, rfl⟩ hstops
    exact .inr ⟨rfl, rfl, rfl, hstops⟩
  · rintro ts n s rest n' ⟨opening, ts₁, n₁, ⟨rfl, hopening, rfl⟩, condition, ts₂, n₂, hcondition,
      closing, ts₃, n₃, ⟨rfl, hclosing, rfl⟩, thenBranch, ts₄, n₄, ⟨d, hthen, hstops⟩, hs⟩ word hword
    rcases hs with ⟨elseWord, mid, elseBranch, rfl, helse, rfl, d', helseBranch, hstops'⟩ |
      ⟨rfl, rfl, rfl, hnoElse⟩
    · -- the `else` was not taken by the branch before it, which is therefore not dangling
      cases d with
      | true => exact absurd helse (by simpa using hstops rfl)
      | false => exact ⟨d', .ifElse hword hopening hcondition hclosing hthen helse helseBranch, hstops'⟩
    · exact ⟨true, .ifThen hword hopening hcondition hclosing hthen, fun _ => hnoElse⟩

theorem sound_whileStatementWith {statement : Reading Stmt}
    (hstatement : Sound statement ReadStatement) :
    Sound (whileStatementWith statement) (After .whileWord ReadStatement) := by
  refine ((Sound.require .leftParen .whileStart).bind fun _ =>
    sound_expression.bind fun condition =>
    (Sound.require .rightParen .whileConditionEnd).bind fun _ =>
    hstatement.bind fun body => Sound.pure _).mono ?_
  rintro ts n s rest n' ⟨opening, ts₁, n₁, ⟨rfl, hopening, rfl⟩, condition, ts₂, n₂, hcondition,
    closing, ts₃, n₃, ⟨rfl, hclosing, rfl⟩, body, ts₄, n₄, ⟨d, hbody, hstops⟩, rfl, rfl, rfl⟩
    word hword
  exact ⟨d, .loop hword hopening hcondition hclosing hbody, hstops⟩

theorem sound_statementWith {declaration : Reading (Option Stmt)} {statement : Reading Stmt}
    (hdeclaration : Sound declaration ReadDeclaration)
    (hstatement : Sound statement ReadStatement) :
    Sound (statementWith declaration statement) ReadStatement := by
  refine Sound.acceptThen (fun t hmem => ?_) ?_
  · dsimp only
    split
    · exact (sound_forStatementWith hstatement).mono fun _ _ _ _ _ h => h t ‹_›
    · exact (sound_ifStatementWith hstatement).mono fun _ _ _ _ _ h => h t ‹_›
    · exact sound_printStatement.mono fun _ _ _ _ _ h => h t ‹_›
    · exact (sound_returnStatement t).mono fun _ _ _ _ _ h => h ‹_›
    · exact (sound_whileStatementWith hstatement).mono fun _ _ _ _ _ h => h t ‹_›
    · refine (Sound.map Stmt.block (sound_blockWith hdeclaration)).mono ?_
      rintro ts n s rest n' ⟨body, rfl, hbody⟩
      exact .closed (.block (by simp_all) hbody)
  · exact sound_expressionStatement.mono fun _ _ _ _ _ h _ => .closed (.expr h)

theorem sound_declarationWith {declaration : Reading (Option Stmt)} {statement : Reading Stmt}
    (hdeclaration : Sound declaration ReadDeclaration)
    (hstatement : Sound statement ReadStatement) :
    Sound (declarationWith declaration statement) ReadDeclaration := by
  refine Sound.recovering (Sound.acceptThen (fun t hmem => ?_) ?_)
  · dsimp only
    split
    · exact (sound_classDeclarationWith hdeclaration).mono fun _ _ _ _ _ h => h t ‹_›
    · refine (Sound.map Stmt.function (sound_routineWith hdeclaration .function)).mono ?_
      rintro ts n s rest n' ⟨routine, rfl, hroutine⟩
      exact .function ‹_› hroutine
    · exact sound_varDeclaration.mono fun _ _ _ _ _ h => .var (h t (by simp_all))
  · refine hstatement.mono ?_
    rintro ts n s rest n' ⟨d, h, -⟩ -
    exact .statement h

/-! ## 9. The knot -/

theorem sound_tooDeep : Sound (recovering (fail .tooDeep)) ReadDeclaration :=
  Sound.recovering (P := Declaration) (Sound.fail .tooDeep)

mutual
theorem sound_declarationAlong : ∀ along : List Token,
    Sound (declarationAlong along) ReadDeclaration
  | [] => by
      rw [declarationAlong]
      exact sound_declarationWith sound_tooDeep
        (sound_statementWith sound_tooDeep (Sound.fail .tooDeep))
  | _ :: along => by
      rw [declarationAlong]
      exact sound_declarationWith (sound_declarationAlong along)
        (sound_statementWith (sound_declarationAlong along) (sound_statementAlong along))

theorem sound_statementAlong : ∀ along : List Token, Sound (statementAlong along) ReadStatement
  | [] => by
      rw [statementAlong]
      exact sound_statementWith sound_tooDeep (Sound.fail .tooDeep)
  | _ :: along => by
      rw [statementAlong]
      exact sound_statementWith (sound_declarationAlong along) (sound_statementAlong along)
end

theorem sound_declaration : Sound declaration ReadDeclaration :=
  fun s => sound_declarationAlong s.ahead s

theorem script_eq : script = repeatUntil atEnd (Option.toList <$> declaration) := by
  unfold script repeatUntil repeatRound
  simp only [bind_map_left]

theorem script_of_several {ts n statements n'}
    (h : Several Declaration ts n statements [] n') : Script ts n statements n' := by
  generalize hlast : ([] : List Token) = last at h
  induction h with
  | nil => subst hlast; exact .nil
  | cons hs _ ih => exact .cons hs (ih hlast)

theorem sound_script : Sound script fun ts n statements rest n' =>
    rest = [] ∧ Script ts n statements n' := by
  rw [script_eq]
  refine (Sound.repeatUntil Sound.atEnd sound_declaration.toList).mono ?_
  rintro ts n statements rest n' ⟨hseveral, hend⟩
  obtain rfl : rest = [] := List.isEmpty_iff.mp hend
  exact ⟨rfl, script_of_several hseveral⟩

end ScriptLang.Grammar
