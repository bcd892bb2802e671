/-
ScriptLang.Proofs.Grammar.Trees — what is true of every tree that is read.

The trees of phrases are not arbitrary. Their mentions have different
identities, in the range that the phrase hands out (`Numbered`); the keyword
`this` is the only word that is mentioned as the instance, and variables are
mentioned by identifiers; declared names are identifiers, and branches and loop
bodies are not declarations (`Tidy`). All of this is one induction over the
rules, together with a predicate `good` that passes from the tokens that are
read to the tokens in the tree.
-/
import ScriptLang.Proofs.Binding.Walk
import ScriptLang.Proofs.Grammar.Phrase

namespace ScriptLang.Grammar.Phrase

open Binding (Tidy TidyAll TidyRoutine TidyMethods declaredName?)

/-! ## 1. Identities of mentions -/

/-- The mentions are made of good tokens, and their identities are different and lie between two
bounds. -/
structure Numbered (good : Token → Prop) (lo hi : Nat) (ms : List Mention) : Prop where
  le : lo ≤ hi
  nodup : (ms.map Mention.id).Nodup
  bounds : ∀ m ∈ ms, lo ≤ m.id ∧ m.id < hi
  words : ∀ m ∈ ms, good m.token ∧
    m.token.kind = if m.role = .self then .thisWord else .identifier

namespace Numbered

variable {good : Token → Prop} {lo mid hi : Nat} {ms ms' : List Mention}

theorem nil (h : lo ≤ hi) : Numbered good lo hi [] :=
  ⟨h, List.nodup_nil, by simp, by simp⟩

theorem single {role : MentionRole} {token : Token} (id : Nat) (hgood : good token)
    (hkind : token.kind = if role = .self then .thisWord else .identifier) :
    Numbered good id (id + 1) [⟨role, id, token⟩] := by
  refine ⟨Nat.le_succ id, by simp, ?_, ?_⟩
  · intro m hm
    rw [List.mem_singleton.mp hm]
    exact ⟨Nat.le_refl id, Nat.lt_succ_self id⟩
  · intro m hm
    rw [List.mem_singleton.mp hm]
    exact ⟨hgood, hkind⟩

theorem append (h : Numbered good lo mid ms) (h' : Numbered good mid hi ms') :
    Numbered good lo hi (ms ++ ms') := by
  refine ⟨Nat.le_trans h.le h'.le, ?_, ?_, ?_⟩
  · rw [List.map_append, List.nodup_append]
    refine ⟨h.nodup, h'.nodup, ?_⟩
    intro a ha b hb
    obtain ⟨m, hm, rfl⟩ := List.mem_map.mp ha
    obtain ⟨m', hm', rfl⟩ := List.mem_map.mp hb
    have := (h.bounds m hm).2
    have := (h'.bounds m' hm').1
    omega
  · intro m hm
    have := h.le
    have := h'.le
    rcases List.mem_append.mp hm with hm | hm
    · have := h.bounds m hm
      omega
    · have := h'.bounds m hm
      omega
  · intro m hm
    rcases List.mem_append.mp hm with hm | hm
    · exact h.words m hm
    · exact h'.words m hm

theorem perm (h : Numbered good lo hi ms) (hperm : ms.Perm ms') : Numbered good lo hi ms' where
  le := h.le
  nodup := (hperm.map Mention.id).nodup_iff.mp h.nodup
  bounds m hm := h.bounds m (hperm.mem_iff.mpr hm)
  words m hm := h.words m (hperm.mem_iff.mpr hm)

theorem widen {lo' hi' : Nat} (h : Numbered good lo hi ms) (hlo : lo' ≤ lo) (hhi : hi ≤ hi') :
    Numbered good lo' hi' ms := by
  refine ⟨Nat.le_trans hlo (Nat.le_trans h.le hhi), h.nodup, ?_, h.words⟩
  intro m hm
  have := h.bounds m hm
  omega

end Numbered

/-- A level joins the mentions of its operands. -/
def JoinsMentions (level : Level) : Prop :=
  ∀ id left op right, (level.build id left op right).mentions = left.mentions ++ right.mentions

theorem joinsMentions_levels : ∀ level ∈ levels, JoinsMentions level := by
  intro level hlevel
  simp only [levels, List.mem_cons, List.not_mem_nil, or_false] at hlevel
  rcases hlevel with rfl | rfl | rfl | rfl | rfl | rfl <;> intro _ _ _ _ <;> rw [Expr.mentions]

/-! ## 2. Expressions -/

/-- All tokens are good. -/
abbrev Good (good : Token → Prop) (ts : List Token) : Prop := ∀ t ∈ ts, good t

section Expressions

variable {good : Token → Prop}

theorem Good.tail {t : Token} {ts : List Token} (h : Good good (t :: ts)) : Good good ts :=
  fun t' ht' => h t' (List.mem_cons_of_mem _ ht')

theorem Good.head {t : Token} {ts : List Token} (h : Good good (t :: ts)) : good t :=
  h t (List.mem_cons_self ..)

mutual
theorem Expression.numbered {ts n e rest n'} : Expression ts n e rest n' → Good good ts →
    Good good rest ∧ Numbered good n n' e.mentions
  | .plain h, hgood => h.numbered joinsMentions_levels hgood
  | @Expression.assign name _ _ _ _ _ n' hkind _ h, hgood => by
      obtain ⟨hrest, hvalue⟩ := h.numbered hgood.tail.tail
      have hassign : Numbered good n' (n' + 1) [⟨.assign, n', name⟩] :=
        .single n' hgood.head hkind
      have hboth := hvalue.append hassign
      exact ⟨hrest, (hboth.widen (Nat.le_succ _) (Nat.le_refl _)).perm
        (List.perm_append_singleton _ _)⟩
  | .setProperty hcall _ _ _ h, hgood => by
      obtain ⟨hmid, hobject⟩ := hcall.numbered hgood
      obtain ⟨hrest, hvalue⟩ := h.numbered hmid.tail.tail.tail
      exact ⟨hrest, (hobject.append (hvalue.widen (Nat.le_succ _) (Nat.le_refl _))).widen
        (Nat.le_refl _) (Nat.le_succ _)⟩

theorem Joined.numbered {ls ts n e rest n'} : Joined ls ts n e rest n' →
    (∀ level ∈ ls, JoinsMentions level) → Good good ts →
    Good good rest ∧ Numbered good n n' e.mentions
  | .operand h, _, hgood => h.numbered hgood
  | .level hleft hmore, hls, hgood => by
      have htighter := fun level hlevel => hls level (List.mem_cons_of_mem _ hlevel)
      obtain ⟨hmid, hfirst⟩ := hleft.numbered htighter hgood
      obtain ⟨hrest, ms, hms, hlater⟩ :=
        hmore.numbered (hls _ (List.mem_cons_self ..)) htighter hmid
      rw [hms]
      exact ⟨hrest, hfirst.append hlater⟩

theorem More.numbered {level tighter left ts n e rest n'} :
    More level tighter left ts n e rest n' → JoinsMentions level →
    (∀ level ∈ tighter, JoinsMentions level) → Good good ts →
    Good good rest ∧ ∃ ms, e.mentions = left.mentions ++ ms ∧ Numbered good n n' ms
  | .done, _, _, hgood => ⟨hgood, [], by simp, .nil (Nat.le_refl _)⟩
  | .more _ hright hmore, hlevel, htighter, hgood => by
      obtain ⟨hmid, hoperand⟩ := hright.numbered htighter hgood.tail
      obtain ⟨hrest, ms, hms, hlater⟩ := hmore.numbered hlevel htighter hmid
      rw [hlevel, List.append_assoc] at hms
      exact ⟨hrest, _, hms, hoperand.append (hlater.widen (Nat.le_succ _) (Nat.le_refl _))⟩

theorem Unary.numbered {ts n e rest n'} : Unary ts n e rest n' → Good good ts →
    Good good rest ∧ Numbered good n n' e.mentions
  | .operator _ h, hgood => by
      obtain ⟨hrest, hoperand⟩ := h.numbered hgood.tail
      exact ⟨hrest, hoperand.widen (Nat.le_refl _) (Nat.le_succ _)⟩
  | .call h, hgood => h.numbered hgood

theorem Call.numbered {ts n e rest n'} : Call ts n e rest n' → Good good ts →
    Good good rest ∧ Numbered good n n' e.mentions
  | .mk hprimary hcalls, hgood => by
      obtain ⟨hmid, hcallee⟩ := hprimary.numbered hgood
      obtain ⟨hrest, ms, hms, hlater⟩ := hcalls.numbered hmid
      rw [hms]
      exact ⟨hrest, hcallee.append hlater⟩

theorem Calls.numbered {callee ts n e rest n'} : Calls callee ts n e rest n' → Good good ts →
    Good good rest ∧ ∃ ms, e.mentions = callee.mentions ++ ms ∧ Numbered good n n' ms
  | .done, hgood => ⟨hgood, [], by simp, .nil (Nat.le_refl _)⟩
  | .call _ hargs _ _ h, hgood => by
      obtain ⟨hmid, harguments⟩ := hargs.numbered hgood.tail
      obtain ⟨hrest, ms, hms, hlater⟩ := h.numbered hmid.tail
      rw [Expr.mentions, List.append_assoc] at hms
      exact ⟨hrest, _, hms, harguments.append (hlater.widen (Nat.le_succ _) (Nat.le_refl _))⟩
  | .property _ _ h, hgood => by
      obtain ⟨hrest, ms, hms, hlater⟩ := h.numbered hgood.tail.tail
      rw [Expr.mentions] at hms
      exact ⟨hrest, ms, hms, hlater.widen (Nat.le_succ _) (Nat.le_refl _)⟩

theorem Arguments.numbered {ts n es rest n'} : Arguments ts n es rest n' → Good good ts →
    Good good rest ∧ Numbered good n n' (Expr.mentionsAll es)
  | .none, hgood => ⟨hgood, .nil (Nat.le_refl _)⟩
  | .some h hmore, hgood => by
      obtain ⟨hmid, hfirst⟩ := h.numbered hgood
      obtain ⟨hrest, hlater⟩ := hmore.numbered hmid
      exact ⟨hrest, hfirst.append hlater⟩

theorem MoreArguments.numbered {ts n es rest n'} : MoreArguments ts n es rest n' →
    Good good ts → Good good rest ∧ Numbered good n n' (Expr.mentionsAll es)
  | .done, hgood => ⟨hgood, .nil (Nat.le_refl _)⟩
  | .more _ h hmore, hgood => by
      obtain ⟨hmid, hfirst⟩ := h.numbered hgood.tail
      obtain ⟨hrest, hlater⟩ := hmore.numbered hmid
      exact ⟨hrest, hfirst.append hlater⟩

theorem Primary.numbered {ts n e rest n'} : Primary ts n e rest n' → Good good ts →
    Good good rest ∧ Numbered good n n' e.mentions
  | .falseWord _, hgood => ⟨hgood.tail, .nil (Nat.le_succ _)⟩
  | .trueWord _, hgood => ⟨hgood.tail, .nil (Nat.le_succ _)⟩
  | .nilWord _, hgood => ⟨hgood.tail, .nil (Nat.le_succ _)⟩
  | .literal _, hgood => ⟨hgood.tail, .nil (Nat.le_succ _)⟩
  | .self hkind, hgood => ⟨hgood.tail, .single _ hgood.head hkind⟩
  | .read hkind, hgood => ⟨hgood.tail, .single _ hgood.head hkind⟩
  | .group _ h _, hgood => by
      obtain ⟨hrest, hinner⟩ := h.numbered hgood.tail
      exact ⟨hrest.tail, hinner.widen (Nat.le_refl _) (Nat.le_succ _)⟩
end

theorem Optional.numbered {ts n e rest n'} : Optional ts n e rest n' → Good good ts →
    Good good rest ∧ Numbered good n n' (Expr.mentionsOption e)
  | .none, hgood => ⟨hgood, .nil (Nat.le_refl _)⟩
  | .some h, hgood => h.numbered hgood

end Expressions

/-! ## 3. Statements without statements in them -/

section Statements

variable {good : Token → Prop}

/-- A good token that is a name. -/
def GoodName (good : Token → Prop) (t : Token) : Prop := good t ∧ t.kind = .identifier

/-- A tree as reading builds it. -/
structure Built (good : Token → Prop) (lo hi : Nat) (s : Stmt) : Prop where
  numbered : Numbered good lo hi s.mentions
  tidy : Tidy (GoodName good) s

theorem Parameters.built {ts names rest} (h : Parameters ts names rest) (hgood : Good good ts) :
    Good good rest ∧ ∀ t ∈ names, GoodName good t := by
  induction h with
  | none => exact ⟨hgood, by simp⟩
  | one hname =>
    refine ⟨hgood.tail, ?_⟩
    intro t ht
    rw [List.mem_singleton.mp ht]
    exact ⟨hgood.head, hname⟩
  | more hname _ _ ih =>
    obtain ⟨hrest, hnames⟩ := ih hgood.tail.tail
    refine ⟨hrest, ?_⟩
    intro t ht
    rcases List.mem_cons.mp ht with rfl | ht
    · exact ⟨hgood.head, hname⟩
    · exact hnames t ht

theorem VarDecl.built {ts n s rest n'} : VarDecl ts n s rest n' → Good good ts →
    Good good rest ∧ Built good n n' s
  | .bare _ hname _, hgood =>
      ⟨hgood.tail.tail.tail, .nil (Nat.le_refl _), .var ⟨hgood.tail.head, hname⟩⟩
  | .initialized _ hname _ h _, hgood => by
      obtain ⟨hrest, hvalue⟩ := h.numbered hgood.tail.tail.tail
      exact ⟨hrest.tail, hvalue, .var ⟨hgood.tail.head, hname⟩⟩

theorem ExprStmt.built {ts n s rest n'} : ExprStmt ts n s rest n' → Good good ts →
    Good good rest ∧ Built good n n' s ∧ declaredName? s = none
  | .mk h _, hgood => by
      obtain ⟨hrest, hvalue⟩ := h.numbered hgood
      exact ⟨hrest.tail, ⟨hvalue, .expression⟩, rfl⟩

/-- The mentions of a statement that may be missing. -/
def mentionsOfFirst : Option Stmt → List Mention
  | some s => s.mentions
  | none => []

theorem ForFirst.built {ts n first rest n'} : ForFirst ts n first rest n' → Good good ts →
    Good good rest ∧ Numbered good n n' (mentionsOfFirst first) ∧
      ∀ s ∈ first, Tidy (GoodName good) s
  | .none _, hgood => ⟨hgood.tail, .nil (Nat.le_refl _), by simp⟩
  | .var h, hgood => by
      obtain ⟨hrest, hbuilt⟩ := h.built hgood
      refine ⟨hrest, hbuilt.numbered, ?_⟩
      intro s hs
      obtain rfl := Option.some.inj hs
      exact hbuilt.tidy
  | .expr h, hgood => by
      obtain ⟨hrest, hbuilt, -⟩ := h.built hgood
      refine ⟨hrest, hbuilt.numbered, ?_⟩
      intro s hs
      obtain rfl := Option.some.inj hs
      exact hbuilt.tidy

/-- What a `for` loop repeats. -/
def forRound (body : Stmt) : Option Expr → Stmt
  | some increment => .block [body, .expression increment]
  | none => body

/-- A `for` loop mentions what its clauses and its body mention. -/
theorem perm_mentions_forLoop (first : Option Stmt) (condition : Expr) (increment : Option Expr)
    (body : Stmt) :
    (mentionsOfFirst first ++ (condition.mentions ++ (Expr.mentionsOption increment
      ++ body.mentions))).Perm (forLoop first condition increment body).mentions := by
  have hround : (Expr.mentionsOption increment ++ body.mentions).Perm
      (forRound body increment).mentions := by
    cases increment with
    | none => exact List.Perm.refl _
    | some increment =>
      simp only [forRound, Stmt.mentions, Stmt.mentionsAll, Expr.mentionsOption, List.append_nil]
      exact List.perm_append_comm
  have hloop := hround.append_left condition.mentions
  cases first with
  | none => exact hloop
  | some s =>
    simp only [forLoop, Stmt.mentions, Stmt.mentionsAll, List.append_nil]
    exact hloop.append_left s.mentions

theorem tidy_forLoop {first : Option Stmt} (condition : Expr) (increment : Option Expr)
    {body : Stmt} (hfirst : ∀ s ∈ first, Tidy good s) (hbody : Tidy good body)
    (hname : declaredName? body = none) : Tidy good (forLoop first condition increment body) := by
  have hloop : Tidy good (.loop condition (forRound body increment)) := by
    cases increment with
    | none => exact .loop hname hbody
    | some increment => exact .loop rfl (.block (.cons hbody (.cons .expression .nil)))
  cases first with
  | none => exact hloop
  | some s => exact .block (.cons (hfirst s rfl) (.cons hloop .nil))

theorem declaredName?_forLoop (first : Option Stmt) (condition : Expr) (increment : Option Expr)
    (body : Stmt) : declaredName? (forLoop first condition increment body) = none := by
  cases first <;> rfl

/-- The condition of a `for` loop mentions nothing if it is left out. -/
theorem numbered_forCondition {lo hi n : Nat} {condition : Option Expr}
    (h : Numbered good lo hi (Expr.mentionsOption condition)) :
    Numbered good lo hi (forCondition n condition).1.mentions ∧ n ≤ (forCondition n condition).2 := by
  cases condition with
  | none => exact ⟨h, Nat.le_succ n⟩
  | some condition => exact ⟨h, Nat.le_refl n⟩

/-! ## 4. Statements and declarations -/

mutual
theorem Statement.built {d ts n s rest n'} : Statement d ts n s rest n' → Good good ts →
    Good good rest ∧ Built good n n' s ∧ declaredName? s = none
  | .expr h, hgood => h.built hgood
  | .print _ h _, hgood => by
      obtain ⟨hrest, hvalue⟩ := h.numbered hgood.tail
      exact ⟨hrest.tail, ⟨hvalue, .print⟩, rfl⟩
  | .ret _ h _, hgood => by
      obtain ⟨hrest, hvalue⟩ := h.numbered hgood.tail
      exact ⟨hrest.tail, ⟨hvalue, .ret⟩, rfl⟩
  | .block _ h, hgood => by
      obtain ⟨hrest, hnumbered, htidy⟩ := h.built hgood.tail
      exact ⟨hrest, ⟨hnumbered, .block htidy⟩, rfl⟩
  | .loop _ _ hcondition _ hbody, hgood => by
      obtain ⟨hmid, hfirst⟩ := hcondition.numbered hgood.tail.tail
      obtain ⟨hrest, hbuilt, hname⟩ := hbody.built hmid.tail
      exact ⟨hrest, ⟨hfirst.append hbuilt.numbered, .loop hname hbuilt.tidy⟩, rfl⟩
  | .ifThen _ _ hcondition _ hthen, hgood => by
      obtain ⟨hmid, hfirst⟩ := hcondition.numbered hgood.tail.tail
      obtain ⟨hrest, hbuilt, hname⟩ := hthen.built hmid.tail
      exact ⟨hrest, ⟨hfirst.append hbuilt.numbered, .ifThen hname hbuilt.tidy⟩, rfl⟩
  | .ifElse _ _ hcondition _ hthen _ helse, hgood => by
      obtain ⟨hmid, hfirst⟩ := hcondition.numbered hgood.tail.tail
      obtain ⟨hlast, hbuilt, hname⟩ := hthen.built hmid.tail
      obtain ⟨hrest, hbuilt', hname'⟩ := helse.built hlast.tail
      exact ⟨hrest, ⟨(hfirst.append hbuilt.numbered).append hbuilt'.numbered,
        .ifElse hname hbuilt.tidy hname' hbuilt'.tidy⟩, rfl⟩
  | .forLoop _ _ hfirst hcondition _ hincrement _ hbody, hgood => by
      obtain ⟨hgood₁, hnumbered₁, htidy⟩ := hfirst.built hgood.tail.tail
      obtain ⟨hgood₂, hnumbered₂⟩ := hcondition.numbered hgood₁
      obtain ⟨hgood₃, hnumbered₃⟩ := hincrement.numbered hgood₂.tail
      obtain ⟨hrest, hbuilt, hname⟩ := hbody.built hgood₃.tail
      obtain ⟨hcondition, hle⟩ := numbered_forCondition hnumbered₂
      have hall := hnumbered₁.append (hcondition.append (hnumbered₃.append hbuilt.numbered))
      exact ⟨hrest, ⟨(hall.widen (Nat.le_refl _) hle).perm (perm_mentions_forLoop _ _ _ _),
        tidy_forLoop _ _ htidy hbuilt.tidy hname⟩, declaredName?_forLoop _ _ _ _⟩

theorem Block.built {ts n body rest n'} : Block ts n body rest n' → Good good ts →
    Good good rest ∧ Numbered good n n' (Stmt.mentionsAll body) ∧ TidyAll (GoodName good) body
  | .close _, hgood => ⟨hgood.tail, .nil (Nat.le_refl _), .nil⟩
  | .cons hs hbody, hgood => by
      obtain ⟨hmid, hbuilt⟩ := hs.built hgood
      obtain ⟨hrest, hnumbered, htidy⟩ := hbody.built hmid
      exact ⟨hrest, hbuilt.numbered.append hnumbered, .cons hbuilt.tidy htidy⟩

theorem Declaration.built {ts n s rest n'} : Declaration ts n s rest n' → Good good ts →
    Good good rest ∧ Built good n n' s
  | .classDecl _ hname _ h, hgood => by
      obtain ⟨hrest, hnumbered, htidy⟩ := h.built hgood.tail.tail.tail
      exact ⟨hrest, hnumbered, .classDecl ⟨hgood.tail.head, hname⟩ htidy⟩
  | .function _ h, hgood => by
      obtain ⟨hrest, hnumbered, htidy⟩ := h.built hgood.tail
      exact ⟨hrest, hnumbered, .function htidy⟩
  | .var h, hgood => h.built hgood
  | .statement h, hgood => by
      obtain ⟨hrest, hbuilt, -⟩ := h.built hgood
      exact ⟨hrest, hbuilt⟩

theorem Methods.built {ts n methods rest n'} : Methods ts n methods rest n' → Good good ts →
    Good good rest ∧ Numbered good n n' (Routine.mentionsAll methods) ∧
      TidyMethods (GoodName good) methods
  | .close _, hgood => ⟨hgood.tail, .nil (Nat.le_refl _), .nil⟩
  | .cons hm hmethods, hgood => by
      obtain ⟨hmid, hnumbered, htidy⟩ := hm.built hgood
      obtain ⟨hrest, hnumbered', htidy'⟩ := hmethods.built hmid
      exact ⟨hrest, hnumbered.append hnumbered', .cons htidy htidy'⟩

theorem Function.built {ts n r rest n'} : Function ts n r rest n' → Good good ts →
    Good good rest ∧ Numbered good n n' r.mentions ∧ TidyRoutine (GoodName good) r
  | .mk hname _ hparameters _ _ _ hbody, hgood => by
      obtain ⟨hmid, hnames⟩ := hparameters.built hgood.tail.tail
      obtain ⟨hrest, hnumbered, htidy⟩ := hbody.built hmid.tail.tail
      exact ⟨hrest, hnumbered, .mk ⟨hgood.head, hname⟩ hnames htidy⟩
end

/-- The statements of a script are built as they are read. -/
theorem Script.built {ts n statements n'} (h : Script ts n statements n') (hgood : Good good ts) :
    Numbered good n n' (Stmt.mentionsAll statements) ∧ TidyAll (GoodName good) statements := by
  induction h with
  | nil => exact ⟨.nil (Nat.le_refl _), .nil⟩
  | cons hs _ ih =>
    obtain ⟨hmid, hbuilt⟩ := hs.built hgood
    obtain ⟨hnumbered, htidy⟩ := ih hmid
    exact ⟨hbuilt.numbered.append hnumbered, .cons hbuilt.tidy htidy⟩

end Statements

end ScriptLang.Grammar.Phrase
