/-
ScriptLang.Proofs.Grammar.Shift — phrases at other places.

The rules for phrases look at kinds and literals, and at nothing beyond the
phrase. So a phrase stays one when its tokens move down some lines, when its
identities start from a later number, and whatever follows it; its tree is
relabelled accordingly. For whole scripts this means that two of them, one
after the other, are a script (`Script.append`), and that the identities do not
matter for whether something is a script (`Script.shifted`).
-/
import ScriptLang.Proofs.Grammar.Phrase
import ScriptLang.Proofs.Tree.Relabel

namespace ScriptLang.Grammar.Phrase

/-! ## 1. Expressions -/

/-- A level joins relabelled operands as it joins the operands. -/
def JoinsLabels (σ : Relabelling) (level : Level) : Prop :=
  ∀ id left op right, (level.build id left op right).relabel σ
    = level.build (σ.id id) (left.relabel σ) (σ.token op) (right.relabel σ)

theorem joinsLabels_levels (σ : Relabelling) : ∀ level ∈ levels, JoinsLabels σ level := by
  intro level hlevel
  simp only [levels, List.mem_cons, List.not_mem_nil, or_false] at hlevel
  rcases hlevel with rfl | rfl | rfl | rfl | rfl | rfl <;> intro _ _ _ _ <;> rw [Expr.relabel]

/-- The tokens further down, with others after them. -/
abbrev lowered (lines : Nat) (after ts : List Token) : List Token :=
  ts.map (Token.moved lines) ++ after

section Shift

variable (lines ids : Nat) (after : List Token)

theorem length_relabelAll (σ : Relabelling) (es : List Expr) :
    (Expr.relabelAll σ es).length = es.length := by
  induction es with
  | nil => rfl
  | cons e es ih => rw [Expr.relabelAll, List.length_cons, ih, List.length_cons]

mutual
theorem Expression.shifted {ts n e rest n'} : Expression ts n e rest n' →
    Expression (lowered lines after ts) (ids + n) (e.relabel (.shift lines ids))
      (lowered lines after rest) (ids + n')
  | .plain h => .plain (h.shifted (joinsLabels_levels _))
  | .assign hname hequals h => .assign hname hequals h.shifted
  | .setProperty hcall hdot hname hequals h =>
      .setProperty hcall.shifted hdot hname hequals h.shifted

theorem Joined.shifted {ls ts n e rest n'} : Joined ls ts n e rest n' →
    (∀ level ∈ ls, JoinsLabels (.shift lines ids) level) →
    Joined ls (lowered lines after ts) (ids + n) (e.relabel (.shift lines ids))
      (lowered lines after rest) (ids + n')
  | .operand h, _ => .operand h.shifted
  | .level hleft hmore, hls =>
      .level (hleft.shifted fun level hlevel => hls level (List.mem_cons_of_mem _ hlevel))
        (hmore.shifted hls)

theorem More.shifted {level tighter left ts n e rest n'} :
    More level tighter left ts n e rest n' →
    (∀ l ∈ level :: tighter, JoinsLabels (.shift lines ids) l) →
    More level tighter (left.relabel (.shift lines ids)) (lowered lines after ts) (ids + n)
      (e.relabel (.shift lines ids)) (lowered lines after rest) (ids + n')
  | .done, _ => .done
  | .more hop hright hmore, hls => by
      have hrest := hmore.shifted hls
      rw [hls level (List.mem_cons_self ..)] at hrest
      exact .more hop (hright.shifted fun l hl => hls l (List.mem_cons_of_mem _ hl)) hrest

theorem Unary.shifted {ts n e rest n'} : Unary ts n e rest n' →
    Unary (lowered lines after ts) (ids + n) (e.relabel (.shift lines ids))
      (lowered lines after rest) (ids + n')
  | .operator hop h => .operator hop h.shifted
  | .call h => .call h.shifted

theorem Call.shifted {ts n e rest n'} : Call ts n e rest n' →
    Call (lowered lines after ts) (ids + n) (e.relabel (.shift lines ids))
      (lowered lines after rest) (ids + n')
  | .mk hprimary hcalls => .mk hprimary.shifted hcalls.shifted

theorem Calls.shifted {callee ts n e rest n'} : Calls callee ts n e rest n' →
    Calls (callee.relabel (.shift lines ids)) (lowered lines after ts) (ids + n)
      (e.relabel (.shift lines ids)) (lowered lines after rest) (ids + n')
  | .done => .done
  | .call hopening harguments hmany hparen h =>
      .call hopening harguments.shifted (by rwa [length_relabelAll]) hparen h.shifted
  | .property hdot hname h => .property hdot hname h.shifted

theorem Arguments.shifted {ts n es rest n'} : Arguments ts n es rest n' →
    Arguments (lowered lines after ts) (ids + n) (Expr.relabelAll (.shift lines ids) es)
      (lowered lines after rest) (ids + n')
  | .none => .none
  | .some h hmore => .some h.shifted hmore.shifted

theorem MoreArguments.shifted {ts n es rest n'} : MoreArguments ts n es rest n' →
    MoreArguments (lowered lines after ts) (ids + n) (Expr.relabelAll (.shift lines ids) es)
      (lowered lines after rest) (ids + n')
  | .done => .done
  | .more hcomma h hmore => .more hcomma h.shifted hmore.shifted

theorem Primary.shifted {ts n e rest n'} : Primary ts n e rest n' →
    Primary (lowered lines after ts) (ids + n) (e.relabel (.shift lines ids))
      (lowered lines after rest) (ids + n')
  | .falseWord h => .falseWord h
  | .trueWord h => .trueWord h
  | .nilWord h => .nilWord h
  | @Primary.literal t _ _ h => Primary.literal (t := t.moved lines) h
  | .self h => .self h
  | .read h => .read h
  | .group hopening h hclosing => .group hopening h.shifted hclosing
end

theorem Optional.shifted {ts n e rest n'} : Optional ts n e rest n' →
    Optional (lowered lines after ts) (ids + n) (e.map (·.relabel (.shift lines ids)))
      (lowered lines after rest) (ids + n')
  | .none => .none
  | .some h => .some (h.shifted lines ids after)

/-! ## 2. Statements without statements in them -/

theorem Parameters.shifted {ts names rest} (h : Parameters ts names rest) :
    Parameters (lowered lines after ts) (names.map (Token.moved lines))
      (lowered lines after rest) := by
  induction h with
  | none => exact .none
  | one hname => exact .one hname
  | more hname hcomma _ ih => exact .more hname hcomma ih

theorem VarDecl.shifted {ts n s rest n'} : VarDecl ts n s rest n' →
    VarDecl (lowered lines after ts) (ids + n) (s.relabel (.shift lines ids))
      (lowered lines after rest) (ids + n')
  | .bare hword hname hsemicolon => .bare hword hname hsemicolon
  | .initialized hword hname hequals h hsemicolon =>
      .initialized hword hname hequals (h.shifted lines ids after) hsemicolon

theorem ExprStmt.shifted {ts n s rest n'} : ExprStmt ts n s rest n' →
    ExprStmt (lowered lines after ts) (ids + n) (s.relabel (.shift lines ids))
      (lowered lines after rest) (ids + n')
  | .mk h hsemicolon => .mk (h.shifted lines ids after) hsemicolon

theorem ForFirst.shifted {ts n first rest n'} : ForFirst ts n first rest n' →
    ForFirst (lowered lines after ts) (ids + n) (first.map (·.relabel (.shift lines ids)))
      (lowered lines after rest) (ids + n')
  | .none hsemicolon => .none hsemicolon
  | .var h => .var (h.shifted lines ids after)
  | .expr h => .expr (h.shifted lines ids after)

theorem relabel_forLoop (σ : Relabelling) (first : Option Stmt) (condition : Expr)
    (increment : Option Expr) (body : Stmt) :
    (forLoop first condition increment body).relabel σ =
      forLoop (first.map (·.relabel σ)) (condition.relabel σ) (increment.map (·.relabel σ))
        (body.relabel σ) := by
  cases first <;> cases increment <;> rfl

theorem forCondition_shifted (n : Nat) (condition : Option Expr) :
    forCondition (ids + n) (condition.map (·.relabel (.shift lines ids))) =
      ((forCondition n condition).1.relabel (.shift lines ids),
        ids + (forCondition n condition).2) := by
  cases condition <;> rfl

/-! ## 3. Statements and declarations -/

mutual
theorem Statement.shifted {d ts n s rest n'} : Statement d ts n s rest n' →
    Statement d (lowered lines after ts) (ids + n) (s.relabel (.shift lines ids))
      (lowered lines after rest) (ids + n')
  | .expr h => .expr (h.shifted lines ids after)
  | .print hword h hsemicolon => .print hword (h.shifted lines ids after) hsemicolon
  | .ret hword h hsemicolon => .ret hword (h.shifted lines ids after) hsemicolon
  | .block hopening h => .block hopening h.shifted
  | .loop hword hopening h hclosing hbody =>
      .loop hword hopening (h.shifted lines ids after) hclosing hbody.shifted
  | .ifThen hword hopening h hclosing hthen =>
      .ifThen hword hopening (h.shifted lines ids after) hclosing hthen.shifted
  | .ifElse hword hopening h hclosing hthen helseWord helse =>
      .ifElse hword hopening (h.shifted lines ids after) hclosing hthen.shifted helseWord
        helse.shifted
  | @Statement.forLoop word opening _ _ _ _ _ _ _ _ _ _ _ _ _ _ _ _ _ hword
      hopening hfirst hcondition hsemicolon hincrement hclosing hbody => by
      have hword' : (word.moved lines).kind = .forWord := hword
      have hopening' : (opening.moved lines).kind = .leftParen := hopening
      have h := Statement.forLoop hword' hopening' (hfirst.shifted lines ids after)
        (hcondition.shifted lines ids after) hsemicolon (hincrement.shifted lines ids after)
        hclosing hbody.shifted
      rw [forCondition_shifted] at h
      rw [relabel_forLoop]
      exact h

theorem Block.shifted {ts n body rest n'} : Block ts n body rest n' →
    Block (lowered lines after ts) (ids + n) (Stmt.relabelAll (.shift lines ids) body)
      (lowered lines after rest) (ids + n')
  | .close hclosing => .close hclosing
  | .cons h hbody => .cons h.shifted hbody.shifted

theorem Declaration.shifted {ts n s rest n'} : Declaration ts n s rest n' →
    Declaration (lowered lines after ts) (ids + n) (s.relabel (.shift lines ids))
      (lowered lines after rest) (ids + n')
  | .classDecl hword hname hopening h => .classDecl hword hname hopening h.shifted
  | .function hword h => .function hword h.shifted
  | .var h => .var (h.shifted lines ids after)
  | .statement h => .statement h.shifted

theorem Methods.shifted {ts n methods rest n'} : Methods ts n methods rest n' →
    Methods (lowered lines after ts) (ids + n) (Routine.relabelAll (.shift lines ids) methods)
      (lowered lines after rest) (ids + n')
  | .close hclosing => .close hclosing
  | .cons h hmethods => .cons h.shifted hmethods.shifted

theorem Function.shifted {ts n r rest n'} : Function ts n r rest n' →
    Function (lowered lines after ts) (ids + n) (r.relabel (.shift lines ids))
      (lowered lines after rest) (ids + n')
  | .mk hname hopening hparameters hmany hclosing hbrace hbody =>
      .mk hname hopening (hparameters.shifted lines after) (by simpa using hmany) hclosing hbrace
        hbody.shifted
end

/-! ## 4. Scripts -/

variable {after}

/-- A script, moved down and renumbered, and another one after it are a script. -/
theorem Script.append {ts n statements n' statements' n''} (h : Script ts n statements n')
    (h' : Script after (ids + n') statements' n'') :
    Script (lowered lines after ts) (ids + n)
      (Stmt.relabelAll (.shift lines ids) statements ++ statements') n'' := by
  induction h with
  | nil => exact h'
  | cons hfirst _ ih => exact .cons (hfirst.shifted lines ids after) (ih h')

/-- A script moved down and renumbered is a script. -/
theorem Script.shifted {ts n statements n'} (h : Script ts n statements n') :
    Script (ts.map (Token.moved lines)) (ids + n) (Stmt.relabelAll (.shift lines ids) statements)
      (ids + n') := by
  have happend := h.append lines ids .nil
  rwa [List.append_nil, lowered, List.append_nil] at happend

end Shift

end ScriptLang.Grammar.Phrase
