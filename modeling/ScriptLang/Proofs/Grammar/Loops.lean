/-
ScriptLang.Proofs.Grammar.Loops — every `for` begins a statement of the script.

Only a statement contains the word: what has no statements in it is spelled
without it (`Derives.forWord_not_mem`). So wherever the word stands in a script
that is read, a `for` statement is read from there on, and the tree that it
becomes stands in the script (`Script.loopAt`).

The trees of `for` loops are not statements of their own kind, so the place of
a body is found through the blocks and the loop that reading has put around it.
-/
import ScriptLang.Proofs.Binding.Standing
import ScriptLang.Proofs.Grammar.Acceptance

namespace ScriptLang.Grammar

/-! ## 1. Phrases without statements in them -/

/-- The phrases of the sort have no statements in them. -/
def Symbol.isPlain : Symbol → Bool
  | .program | .declaration | .classDecl | .funDecl | .function => false
  | .statement _ | .printStmt | .returnStmt | .forStmt _ | .whileStmt _ | .ifStmt _ => false
  | .block => false
  | .many item => item.isPlain
  | .optional item => item.isPlain
  | .joined operators operand => Kind.forWord ∉ operators && operand.isPlain
  | _ => true

/-- A phrase without statements in it is spelled without `for`. -/
theorem Derives.forWord_not_mem {s : Symbol} {ks : List Kind} (h : Derives s ks)
    (hplain : s.isPlain) : Kind.forWord ∉ ks := by
  induction h with
  | joinedCons hop _ _ iht ihu =>
    simp only [Symbol.isPlain, Bool.and_eq_true, decide_eq_true_eq] at hplain ihu
    have hne : Kind.forWord ≠ _ := fun h => hplain.1 (h ▸ hop)
    simp [hne, iht hplain.2, ihu hplain]
  | unaryOperator hop _ ih =>
    simp only [List.mem_cons, not_or]
    refine ⟨?_, ih hplain⟩
    rintro rfl
    exact absurd hop (by decide)
  | primaryWord hk =>
    simp only [List.mem_singleton]
    rintro rfl
    exact absurd hk (by decide)
  | _ => simp_all [Symbol.isPlain]

namespace Phrase

variable {script : List Stmt} {around : Surroundings}

/-! ## 2. Where loops are read -/

/-- The tokens begin with a statement, and the tree that is read stands in the script. -/
def LoopAt (script : List Stmt) (ts : List Token) : Prop :=
  ∃ d n s rest n' around, Statement d ts n s rest n' ∧ Stands script around s

/-- From every `for` that stands in `ts` before `rest`, a statement of the script is read. -/
structure LoopsStand (script : List Stmt) (ts rest : List Token) : Prop where
  suffix : rest <:+ ts
  loopAt : ∀ word after, word :: after <:+ ts → rest <:+ after → word.kind = .forWord →
    LoopAt script (word :: after)

namespace LoopsStand

variable {ts mid rest : List Token} {word : Token}

theorem trans (h : LoopsStand script ts mid) (h' : LoopsStand script mid rest) :
    LoopsStand script ts rest := by
  refine ⟨h'.suffix.trans h.suffix, fun word after hword hrest hkind => ?_⟩
  -- the word stands before `mid` or in it
  rcases List.suffix_or_suffix_of_suffix hword h.suffix with hlater | hmid
  · exact h'.loopAt word after hlater hrest hkind
  · rcases List.suffix_cons_iff.mp hmid with rfl | hmid
    · exact h'.loopAt word after (List.suffix_refl _) hrest hkind
    · exact h.loopAt word after hword hmid hkind

/-- One word more in front. -/
theorem cons (hword : word.kind = .forWord → LoopAt script (word :: ts))
    (h : LoopsStand script ts rest) : LoopsStand script (word :: ts) rest := by
  refine ⟨h.suffix.trans (List.suffix_cons _ _), fun word' after hword' hrest hkind => ?_⟩
  rcases List.suffix_cons_iff.mp hword' with heq | hlater
  · obtain ⟨rfl, rfl⟩ := List.cons.inj heq
    exact hword hkind
  · exact h.loopAt word' after hlater hrest hkind

/-- Another word than `for` in front. -/
theorem consOther {kind : Kind} (hword : word.kind = kind) (hkind : kind ≠ .forWord)
    (h : LoopsStand script ts rest) : LoopsStand script (word :: ts) rest :=
  h.cons fun hfor => absurd (hword.symm.trans hfor) hkind

theorem nil : LoopsStand script ts ts := by
  refine ⟨List.suffix_refl _, fun word after hword hrest _ => ?_⟩
  have := hword.length_le
  have := hrest.length_le
  simp only [List.length_cons] at *
  omega

/-- Where no `for` stands there is nothing to show. -/
theorem of_plain {t : List Token} (h : Kind.forWord ∉ t.map Token.kind) :
    LoopsStand script (t ++ rest) rest := by
  refine ⟨List.suffix_append _ _, fun word after hword hrest hkind => ?_⟩
  obtain ⟨earlier, hearlier⟩ := hword
  obtain ⟨later, rfl⟩ := hrest
  have hall : (earlier ++ word :: later) ++ rest = t ++ rest := by simpa using hearlier
  refine absurd ?_ h
  rw [← hkind, ← List.append_cancel_right hall]
  exact List.mem_map_of_mem (by simp)

theorem of_spans {s : Symbol} (h : Spans s ts rest) (hplain : s.isPlain) :
    LoopsStand script ts rest := by
  obtain ⟨t, rfl, ht⟩ := h
  exact of_plain (ht.forWord_not_mem hplain)

end LoopsStand

theorem Parameters.loopsStand {ts names rest} (h : Parameters ts names rest) :
    LoopsStand script ts rest := by
  obtain ⟨t, rfl, ⟨-, rfl⟩ | ht⟩ := h.spans
  · exact .nil
  · exact .of_plain (ht.forWord_not_mem rfl)

/-- The body of a `for` loop stands within the tree of the loop. -/
theorem exists_row_of_forLoop {first : Option Stmt} {condition : Expr} {increment : Option Expr}
    {body : Stmt} {more : List Stmt}
    (h : Row script around (forLoop first condition increment body :: more)) :
    ∃ around more, Row script around (body :: more) := by
  cases first with
  | none =>
    cases increment with
    | none => exact ⟨_, _, h.loop⟩
    | some increment => exact ⟨_, _, h.loop.block⟩
  | some s =>
    cases increment with
    | none => exact ⟨_, _, h.block.rest.loop⟩
    | some increment => exact ⟨_, _, h.block.rest.loop.block⟩

/-! ## 3. Statements and declarations

The induction follows the rules, along with the place of what is read. -/

mutual
theorem Statement.loopsStand {d ts n s rest n' around more} : Statement d ts n s rest n' →
    Row script around (s :: more) → LoopsStand script ts rest
  | .expr h, _ => .of_spans h.spans rfl
  | .print hword h hsemicolon, _ => by
      have hvalue : LoopsStand script _ rest :=
        (LoopsStand.of_spans h.spans rfl).trans (.consOther hsemicolon nofun .nil)
      exact hvalue.consOther hword nofun
  | .ret hword h hsemicolon, _ => by
      have hvalue : LoopsStand script _ rest :=
        (LoopsStand.of_spans h.spans rfl).trans (.consOther hsemicolon nofun .nil)
      exact hvalue.consOther hword nofun
  | .block hopening h, hrow => (h.loopsStand hrow.block).consOther hopening nofun
  | .loop hword hopening hcondition hclosing hbody, hrow => by
      have hrest := (hbody.loopsStand hrow.loop).consOther hclosing nofun
      have hhead := (LoopsStand.of_spans hcondition.spans rfl).trans hrest
      exact (hhead.consOther hopening nofun).consOther hword nofun
  | .ifThen hword hopening hcondition hclosing hthen, hrow => by
      have hrest := (hthen.loopsStand hrow.thenOnly).consOther hclosing nofun
      have hhead := (LoopsStand.of_spans hcondition.spans rfl).trans hrest
      exact (hhead.consOther hopening nofun).consOther hword nofun
  | .ifElse hword hopening hcondition hclosing hthen helseWord helse, hrow => by
      have hlast := (helse.loopsStand hrow.elseBranch).consOther helseWord nofun
      have hrest := ((hthen.loopsStand hrow.thenBranch).trans hlast).consOther hclosing nofun
      have hhead := (LoopsStand.of_spans hcondition.spans rfl).trans hrest
      exact (hhead.consOther hopening nofun).consOther hword nofun
  | .forLoop hword hopening hfirst hcondition hsemicolon hincrement hclosing hbody, hrow => by
      obtain ⟨_, _, hinner⟩ := exists_row_of_forLoop hrow
      have hround := (hbody.loopsStand hinner).consOther hclosing nofun
      have hlater := ((LoopsStand.of_spans hincrement.spans rfl).trans hround).consOther
        hsemicolon nofun
      have htests := (LoopsStand.of_spans hcondition.spans rfl).trans hlater
      have hclauses := ((LoopsStand.of_spans hfirst.spans rfl).trans htests).consOther
        hopening nofun
      have hread := Statement.forLoop hword hopening hfirst hcondition hsemicolon hincrement
        hclosing hbody
      exact hclauses.cons fun _ => ⟨_, _, _, _, _, _, hread, _, hrow⟩

theorem Block.loopsStand {ts n body rest n' around} : Block ts n body rest n' →
    Row script around body → LoopsStand script ts rest
  | .close hclosing, _ => .consOther hclosing nofun .nil
  | .cons hs hbody, hrow => (hs.loopsStand hrow).trans (hbody.loopsStand hrow.rest)

theorem Declaration.loopsStand {ts n s rest n' around more} : Declaration ts n s rest n' →
    Row script around (s :: more) → LoopsStand script ts rest
  | .classDecl hword hname hopening h, hrow => by
      have hmethods := h.loopsStand fun _ hmethod => ⟨_, hrow.method hmethod⟩
      exact ((hmethods.consOther hopening nofun).consOther hname nofun).consOther hword nofun
  | .function hword h, hrow => (h.loopsStand hrow.function).consOther hword nofun
  | .var h, _ => .of_spans h.spans rfl
  | .statement h, hrow => h.loopsStand hrow

theorem Methods.loopsStand {ts n methods rest n'} : Methods ts n methods rest n' →
    (∀ method ∈ methods, ∃ around, Row script around method.body) → LoopsStand script ts rest
  | .close hclosing, _ => .consOther hclosing nofun .nil
  | .cons hm hmethods, hrows => by
      obtain ⟨_, hrow⟩ := hrows _ List.mem_cons_self
      have hlater := hmethods.loopsStand fun _ h => hrows _ (List.mem_cons_of_mem _ h)
      exact (hm.loopsStand hrow).trans hlater

theorem Function.loopsStand {ts n r rest n' around} : Function ts n r rest n' →
    Row script around r.body → LoopsStand script ts rest
  | .mk hname hopening hparameters _ hclosing hbrace hbody, hrow => by
      have hrest := ((hbody.loopsStand hrow).consOther hbrace nofun).consOther hclosing nofun
      exact ((hparameters.loopsStand.trans hrest).consOther hopening nofun).consOther hname nofun
end

theorem Script.loopsStand {ts n statements n'} (h : Script ts n statements n')
    (hrow : Row script around statements) : LoopsStand script ts [] := by
  induction h generalizing around with
  | nil => exact .nil
  | cons hs _ ih => exact (hs.loopsStand hrow).trans (ih hrow.rest)

/-- Wherever `for` stands in a script, a statement of the script is read. -/
theorem Script.loopAt {n n' : Nat} {statements : List Stmt} {before after : List Token}
    {word : Token} (h : Script (before ++ word :: after) n statements n')
    (hword : word.kind = .forWord) : LoopAt statements (word :: after) :=
  (h.loopsStand .script).loopAt word after (List.suffix_append _ _) List.nil_suffix hword

end Phrase

end ScriptLang.Grammar
