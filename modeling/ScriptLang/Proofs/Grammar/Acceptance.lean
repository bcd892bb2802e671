/-
ScriptLang.Proofs.Grammar.Acceptance — a list of tokens is read without fault
exactly if it is a sentence.

`parse_accepts_iff` is the statement: no fault is recorded if and only if the
kinds of the tokens before the end of the input are derivable from `program`
in the grammar of `Proofs.Grammar.Language`.

Reading is compared with phrases in `Proofs.Grammar.Soundness` and
`Proofs.Grammar.Completeness`. What is left is to compare phrases with
derivations. A phrase loses its tree and becomes a derivation (`spans`), and a
derivation gets a tree, whatever tokens it is spelled with and whatever
follows them (`phrased_of_derives`).
-/
import ScriptLang.Proofs.Grammar.Completeness

namespace ScriptLang.Grammar

open Phrase

/-! ## 1. From phrases to derivations -/

/-- The tokens `ts` begin with a phrase of the sort `s`, and the tokens `rest` follow it. -/
def Spans (s : Symbol) (ts rest : List Token) : Prop :=
  ∃ t, ts = t ++ rest ∧ Derives s (t.map Token.kind)

/-- The sort of the operands joined by that many of the tightest levels. -/
def joinedSymbol : Nat → Symbol
  | 0 => .unary
  | 1 => .factor
  | 2 => .term
  | 3 => .comparison
  | 4 => .equality
  | 5 => .logicAnd
  | _ => .logicOr

/-- Every level has its rule. -/
theorem derives_level {level : Level} {tighter : List Level} (h : level :: tighter <:+ levels)
    {t u : List Kind} (ht : Derives (joinedSymbol tighter.length) t)
    (hu : Derives (.joined level.operators (joinedSymbol tighter.length)) u) :
    Derives (joinedSymbol (tighter.length + 1)) (t ++ u) := by
  simp only [levels, List.suffix_cons_iff, List.cons.injEq, List.suffix_nil, reduceCtorEq,
    or_false] at h
  rcases h with ⟨rfl, rfl⟩ | ⟨rfl, rfl⟩ | ⟨rfl, rfl⟩ | ⟨rfl, rfl⟩ | ⟨rfl, rfl⟩ | ⟨rfl, rfl⟩
  · exact .logicOr ht hu
  · exact .logicAnd ht hu
  · exact .equality ht hu
  · exact .comparison ht hu
  · exact .term ht hu
  · exact .factor ht hu

mutual
theorem Phrase.Expression.spansAssignment {ts n e rest n'} :
    Expression ts n e rest n' → Spans .assignment ts rest
  | .plain h => by
      obtain ⟨t, rfl, ht⟩ := h.spans (List.suffix_refl _)
      exact ⟨t, rfl, .assignmentPlain ht⟩
  | @Expression.assign name equals _ _ _ _ _ hname hequals h => by
      obtain ⟨t, rfl, ht⟩ := h.spansAssignment
      exact ⟨name :: equals :: t, rfl, by simpa [hname, hequals] using Derives.assignmentName ht⟩
  | @Expression.setProperty dot name equals _ _ _ _ _ _ _ _ hcall hdot hname hequals h => by
      obtain ⟨t, rfl, ht⟩ := hcall.spans
      obtain ⟨u, rfl, hu⟩ := h.spansAssignment
      refine ⟨t ++ dot :: name :: equals :: u, by simp, ?_⟩
      simpa [hdot, hname, hequals] using Derives.assignmentProperty ht hu

theorem Phrase.Joined.spans {ls ts n e rest n'} : Joined ls ts n e rest n' → ls <:+ levels →
    Spans (joinedSymbol ls.length) ts rest
  | .operand h, _ => h.spans
  | .level hleft hmore, hls => by
      have htighter := (List.suffix_cons _ _).trans hls
      obtain ⟨t, rfl, ht⟩ := hleft.spans htighter
      obtain ⟨u, rfl, hu⟩ := hmore.spans htighter
      exact ⟨t ++ u, by simp, by simpa using derives_level hls ht hu⟩

theorem Phrase.More.spans {level tighter left ts n e rest n'} :
    More level tighter left ts n e rest n' → tighter <:+ levels →
    Spans (.joined level.operators (joinedSymbol tighter.length)) ts rest
  | .done, _ => ⟨[], rfl, .joinedNil⟩
  | @More.more _ _ _ op _ _ _ _ _ _ _ _ hop hright hmore, htighter => by
      obtain ⟨t, rfl, ht⟩ := hright.spans htighter
      obtain ⟨u, rfl, hu⟩ := hmore.spans htighter
      exact ⟨op :: t ++ u, by simp, by simpa using Derives.joinedCons hop ht hu⟩

theorem Phrase.Unary.spans {ts n e rest n'} : Unary ts n e rest n' → Spans .unary ts rest
  | @Unary.operator op _ _ _ _ _ hop h => by
      obtain ⟨t, rfl, ht⟩ := h.spans
      exact ⟨op :: t, rfl, .unaryOperator hop ht⟩
  | .call h => by
      obtain ⟨t, rfl, ht⟩ := h.spans
      exact ⟨t, rfl, .unaryCall ht⟩

theorem Phrase.Call.spans {ts n e rest n'} : Call ts n e rest n' → Spans .call ts rest
  | .mk hprimary hcalls => by
      obtain ⟨t, rfl, ht⟩ := hprimary.spans
      obtain ⟨u, rfl, hu⟩ := hcalls.spans
      exact ⟨t ++ u, by simp, by simpa using Derives.call ht hu⟩

theorem Phrase.Calls.spans {callee ts n e rest n'} :
    Calls callee ts n e rest n' → Spans .suffixes ts rest
  | .done => ⟨[], rfl, .suffixesNil⟩
  | @Calls.call _ opening paren _ _ _ _ _ _ _ _ hopening hargs hmany hparen h => by
      obtain ⟨t, rfl, ht⟩ := hargs.spans
      obtain ⟨u, rfl, hu⟩ := h.spans
      refine ⟨opening :: t ++ paren :: u, by simp, ?_⟩
      simpa [hopening, hparen] using Derives.suffixesCall hmany ht hu
  | @Calls.property _ dot name _ _ _ _ _ hdot hname h => by
      obtain ⟨t, rfl, ht⟩ := h.spans
      exact ⟨dot :: name :: t, rfl, by simpa [hdot, hname] using Derives.suffixesProperty ht⟩

theorem Phrase.Arguments.spans {ts n es rest n'} :
    Arguments ts n es rest n' → Spans (.optional (.arguments es.length)) ts rest
  | .none => ⟨[], rfl, .optionalNone⟩
  | .some h hmore => by
      obtain ⟨t, rfl, ht⟩ := h.spansAssignment
      obtain ⟨u, rfl, hu⟩ := hmore.spans
      exact ⟨t ++ u, by simp, by simpa using Derives.optionalSome (hu _ (.expression ht))⟩

/-- The arguments after the first complete every list that begins with an expression. -/
theorem Phrase.MoreArguments.spans {ts n es rest n'} : MoreArguments ts n es rest n' →
    ∃ t, ts = t ++ rest ∧ ∀ first, Derives .expression first →
      Derives (.arguments (es.length + 1)) (first ++ t.map Token.kind)
  | .done => ⟨[], rfl, fun first hfirst => by simpa using Derives.argumentsOne hfirst⟩
  | @MoreArguments.more comma _ _ _ _ _ _ _ _ hcomma h hmore => by
      obtain ⟨t, rfl, ht⟩ := h.spansAssignment
      obtain ⟨u, rfl, hu⟩ := hmore.spans
      refine ⟨comma :: t ++ u, by simp, fun first hfirst => ?_⟩
      simpa [hcomma] using Derives.argumentsMore hfirst (hu _ (.expression ht))

theorem Phrase.Primary.spans {ts n e rest n'} : Primary ts n e rest n' → Spans .primary ts rest
  | @Primary.falseWord t _ _ hkind => ⟨[t], rfl, .primaryWord (by simp [hkind])⟩
  | @Primary.trueWord t _ _ hkind => ⟨[t], rfl, .primaryWord (by simp [hkind])⟩
  | @Primary.nilWord t _ _ hkind => ⟨[t], rfl, .primaryWord (by simp [hkind])⟩
  | @Primary.literal t _ _ hkind => by
      simp only [List.mem_cons, List.not_mem_nil, or_false] at hkind
      rcases hkind with hkind | hkind
      all_goals exact ⟨[t], rfl, .primaryWord (by simp [hkind])⟩
  | @Primary.self t _ _ hkind => ⟨[t], rfl, .primaryWord (by simp [hkind])⟩
  | @Primary.read t _ _ hkind => ⟨[t], rfl, .primaryWord (by simp [hkind])⟩
  | @Primary.group opening closing _ _ _ _ _ hopening h hclosing => by
      obtain ⟨t, rfl, ht⟩ := h.spansAssignment
      refine ⟨opening :: t ++ [closing], by simp, ?_⟩
      simpa [hopening, hclosing] using Derives.primaryGroup (.expression ht)
end

theorem Phrase.Expression.spans {ts n e rest n'} (h : Expression ts n e rest n') :
    Spans .expression ts rest := by
  obtain ⟨t, rfl, ht⟩ := h.spansAssignment
  exact ⟨t, rfl, .expression ht⟩

theorem Phrase.Optional.spans {ts n e rest n'} :
    Optional ts n e rest n' → Spans (.optional .expression) ts rest
  | .none => ⟨[], rfl, .optionalNone⟩
  | .some h => by
      obtain ⟨t, rfl, ht⟩ := h.spans
      exact ⟨t, rfl, .optionalSome ht⟩

theorem Phrase.Parameters.spans {ts names rest} (h : Parameters ts names rest) :
    ∃ t, ts = t ++ rest ∧ (names = [] ∧ t = [] ∨
      Derives (.parameters names.length) (t.map Token.kind)) := by
  induction h with
  | none => exact ⟨[], rfl, .inl ⟨rfl, rfl⟩⟩
  | @one name ts hname => exact ⟨[name], rfl, .inr (by simpa [hname] using Derives.parametersOne)⟩
  | @more name comma next ts names rest hname hcomma _ ih =>
    obtain ⟨t, rfl, ht⟩ := ih
    rcases ht with ⟨hnil, -⟩ | ht
    · exact absurd hnil (by simp)
    · refine ⟨name :: comma :: t, rfl, .inr ?_⟩
      simpa [hname, hcomma] using Derives.parametersMore ht

theorem Phrase.VarDecl.spans {ts n s rest n'} : VarDecl ts n s rest n' → Spans .varDecl ts rest
  | @VarDecl.bare word name semicolon _ _ hword hname hsemicolon => by
      refine ⟨[word, name, semicolon], rfl, ?_⟩
      simpa [hword, hname, hsemicolon] using Derives.varDecl .initializerNone
  | @VarDecl.initialized word name equals semicolon _ _ _ _ _ hword hname hequals h hsemicolon => by
      obtain ⟨t, rfl, ht⟩ := h.spans
      refine ⟨word :: name :: equals :: t ++ [semicolon], by simp, ?_⟩
      simpa [hword, hname, hequals, hsemicolon] using Derives.varDecl (.initializerSome ht)

theorem Phrase.ExprStmt.spans {ts n s rest n'} : ExprStmt ts n s rest n' → Spans .exprStmt ts rest
  | @ExprStmt.mk semicolon _ _ _ _ _ h hsemicolon => by
      obtain ⟨t, rfl, ht⟩ := h.spans
      exact ⟨t ++ [semicolon], by simp, by simpa [hsemicolon] using Derives.exprStmt ht⟩

theorem Phrase.ForFirst.spans {ts n s rest n'} : ForFirst ts n s rest n' → Spans .forFirst ts rest
  | @ForFirst.none semicolon _ _ hsemicolon =>
    ⟨[semicolon], rfl, by simpa [hsemicolon] using Derives.forFirstNone⟩
  | .var h => by
      obtain ⟨t, rfl, ht⟩ := h.spans
      exact ⟨t, rfl, .forFirstVar ht⟩
  | .expr h => by
      obtain ⟨t, rfl, ht⟩ := h.spans
      exact ⟨t, rfl, .forFirstExpr ht⟩

mutual
theorem Phrase.Statement.spans {d ts n s rest n'} :
    Statement d ts n s rest n' → Spans (.statement d) ts rest
  | .expr h => by
      obtain ⟨t, rfl, ht⟩ := h.spans
      exact ⟨t, rfl, .statementExpr ht⟩
  | @Statement.print word semicolon _ _ _ _ _ hword h hsemicolon => by
      obtain ⟨t, rfl, ht⟩ := h.spans
      refine ⟨word :: t ++ [semicolon], by simp, .statementPrint ?_⟩
      simpa [hword, hsemicolon] using Derives.printStmt ht
  | @Statement.ret word semicolon _ _ _ _ _ hword h hsemicolon => by
      obtain ⟨t, rfl, ht⟩ := h.spans
      refine ⟨word :: t ++ [semicolon], by simp, .statementReturn ?_⟩
      simpa [hword, hsemicolon] using Derives.returnStmt ht
  | @Statement.block opening _ _ _ _ _ hopening h => by
      obtain ⟨t, closing, rfl, hclosing, ht⟩ := h.spans
      refine ⟨opening :: t ++ [closing], by simp, .statementBlock ?_⟩
      simpa [hopening, hclosing] using Derives.block ht
  | @Statement.loop word opening closing _ _ _ _ _ _ _ _ _ hword hopening hcondition hclosing
      hbody => by
      obtain ⟨t, rfl, ht⟩ := hcondition.spans
      obtain ⟨u, rfl, hu⟩ := hbody.spans
      refine ⟨word :: opening :: t ++ closing :: u, by simp, .statementWhile ?_⟩
      simpa [hword, hopening, hclosing] using Derives.whileStmt ht hu
  | @Statement.ifThen word opening closing _ _ _ _ _ _ _ _ _ hword hopening hcondition hclosing
      hthen => by
      obtain ⟨t, rfl, ht⟩ := hcondition.spans
      obtain ⟨u, rfl, hu⟩ := hthen.spans
      refine ⟨word :: opening :: t ++ closing :: u, by simp, .statementIf ?_⟩
      simpa [hword, hopening, hclosing] using Derives.ifStmt ht hu
  | @Statement.ifElse word opening closing elseWord _ _ _ _ _ _ _ _ _ _ _ _ hword hopening
      hcondition hclosing hthen helse helseBranch => by
      obtain ⟨t, rfl, ht⟩ := hcondition.spans
      obtain ⟨u, rfl, hu⟩ := hthen.spans
      obtain ⟨v, rfl, hv⟩ := helseBranch.spans
      refine ⟨word :: opening :: t ++ closing :: u ++ elseWord :: v, by simp, .statementIf ?_⟩
      simpa [hword, hopening, hclosing, helse] using Derives.ifElseStmt ht hu hv
  | @Statement.forLoop word opening closing semicolon _ _ _ _ _ _ _ _ _ _ _ _ _ _ _ hword hopening
      hfirst hcondition hsemicolon hincrement hclosing hbody => by
      obtain ⟨t, rfl, ht⟩ := hfirst.spans
      obtain ⟨u, rfl, hu⟩ := hcondition.spans
      obtain ⟨v, rfl, hv⟩ := hincrement.spans
      obtain ⟨w, rfl, hw⟩ := hbody.spans
      refine ⟨word :: opening :: t ++ u ++ semicolon :: v ++ closing :: w, by simp,
        .statementFor ?_⟩
      simpa [hword, hopening, hclosing, hsemicolon] using Derives.forStmt ht hu hv hw

theorem Phrase.Block.spans {ts n body rest n'} : Block ts n body rest n' →
    ∃ (t : List Token) (closing : Token), ts = t ++ closing :: rest ∧ closing.kind = .rightBrace ∧
      Derives (.many .declaration) (t.map Token.kind)
  | .close hclosing => ⟨[], _, rfl, hclosing, .manyNil⟩
  | .cons hs hbody => by
      obtain ⟨t, rfl, ht⟩ := hs.spans
      obtain ⟨u, closing, rfl, hclosing, hu⟩ := hbody.spans
      exact ⟨t ++ u, closing, by simp, hclosing, by simpa using Derives.manyCons ht hu⟩

theorem Phrase.Declaration.spans {ts n s rest n'} :
    Declaration ts n s rest n' → Spans .declaration ts rest
  | @Declaration.classDecl word name opening _ _ _ _ _ hword hname hopening h => by
      obtain ⟨t, closing, rfl, hclosing, ht⟩ := h.spans
      refine ⟨word :: name :: opening :: t ++ [closing], by simp, .declarationClass ?_⟩
      simpa [hword, hname, hopening, hclosing] using Derives.classDecl ht
  | @Declaration.function word _ _ _ _ _ hword h => by
      obtain ⟨t, rfl, ht⟩ := h.spans
      refine ⟨word :: t, rfl, .declarationFun ?_⟩
      simpa [hword] using Derives.funDecl ht
  | .var h => by
      obtain ⟨t, rfl, ht⟩ := h.spans
      exact ⟨t, rfl, .declarationVar ht⟩
  | .statement h => by
      obtain ⟨t, rfl, ht⟩ := h.spans
      exact ⟨t, rfl, .declarationStatement ht⟩

theorem Phrase.Methods.spans {ts n methods rest n'} : Methods ts n methods rest n' →
    ∃ (t : List Token) (closing : Token), ts = t ++ closing :: rest ∧ closing.kind = .rightBrace ∧
      Derives (.many .function) (t.map Token.kind)
  | .close hclosing => ⟨[], _, rfl, hclosing, .manyNil⟩
  | .cons hm hmethods => by
      obtain ⟨t, rfl, ht⟩ := hm.spans
      obtain ⟨u, closing, rfl, hclosing, hu⟩ := hmethods.spans
      exact ⟨t ++ u, closing, by simp, hclosing, by simpa using Derives.manyCons ht hu⟩

theorem Phrase.Function.spans {ts n r rest n'} : Function ts n r rest n' → Spans .function ts rest
  | @Function.mk name opening closing brace _ _ _ _ _ _ _ hname hopening hparameters hmany hclosing
      hbrace hbody => by
      obtain ⟨t, rfl, ht⟩ := hparameters.spans
      obtain ⟨u, closing', rfl, hclosing', hu⟩ := hbody.spans
      refine ⟨name :: opening :: t ++ closing :: brace :: u ++ [closing'], by simp, ?_⟩
      have hblock := Derives.block hu
      rcases ht with ⟨rfl, rfl⟩ | ht
      · simpa [hname, hopening, hclosing, hbrace, hclosing'] using
          Derives.function (n := 0) (Nat.zero_le _) .optionalNone hblock
      · simpa [hname, hopening, hclosing, hbrace, hclosing'] using
          Derives.function hmany (.optionalSome ht) hblock
end

theorem Phrase.Script.derives {ts n statements n'} (h : Script ts n statements n') :
    Derives .program (ts.map Token.kind) := by
  suffices hmany : Derives (.many .declaration) (ts.map Token.kind) from .program hmany
  induction h with
  | nil => exact .manyNil
  | cons hs _ ih =>
    obtain ⟨t, rfl, ht⟩ := hs.spans
    simpa using Derives.manyCons ht ih

/-! ## 2. From derivations to phrases -/

/-- Pieces in a row, each with a property. -/
inductive Pieces (P : List Token → Prop) : List Token → Prop where
  | nil : Pieces P []
  | cons {t u} : P t → Pieces P u → Pieces P (t ++ u)

/-- Tokens that are read as a phrase of a sort whatever follows them and whatever identity is
the next unused one. -/
def Symbol.Phrased : Symbol → List Token → Prop
  | .program, t => ∀ n, ∃ statements n', Script t n statements n'
  | .declaration, t => ∀ rest n, ∃ s n', Declaration (t ++ rest) n s rest n'
  | .classDecl, t => ∀ rest n, ∃ s n', Declaration (t ++ rest) n s rest n'
  | .funDecl, t => ∀ rest n, ∃ s n', Declaration (t ++ rest) n s rest n'
  | .function, t => ∀ rest n, ∃ r n', Function (t ++ rest) n r rest n'
  | .varDecl, t => ∀ rest n, ∃ s n', VarDecl (t ++ rest) n s rest n'
  | .initializer, t => t = [] ∨ ∃ equals u, t = equals :: u ∧ equals.kind = .equal ∧
      ∀ rest n, ∃ e n', Expression (u ++ rest) n e rest n'
  | .statement d, t => ∀ rest n, ∃ s n', Statement d (t ++ rest) n s rest n'
  | .exprStmt, t => ∀ rest n, ∃ s n', ExprStmt (t ++ rest) n s rest n'
  | .printStmt, t => ∀ rest n, ∃ s n', Statement false (t ++ rest) n s rest n'
  | .returnStmt, t => ∀ rest n, ∃ s n', Statement false (t ++ rest) n s rest n'
  | .forStmt d, t => ∀ rest n, ∃ s n', Statement d (t ++ rest) n s rest n'
  | .forFirst, t => ∀ rest n, ∃ o n', ForFirst (t ++ rest) n o rest n'
  | .whileStmt d, t => ∀ rest n, ∃ s n', Statement d (t ++ rest) n s rest n'
  | .ifStmt d, t => ∀ rest n, ∃ s n', Statement d (t ++ rest) n s rest n'
  | .block, t => ∃ opening u, t = opening :: u ∧ opening.kind = .leftBrace ∧
      ∀ rest n, ∃ body n', Block (u ++ rest) n body rest n'
  | .parameters count, t => ∀ rest, ∃ name names, (name :: names).length = count ∧
      Parameters (t ++ rest) (name :: names) rest
  | .expression, t => ∀ rest n, ∃ e n', Expression (t ++ rest) n e rest n'
  | .assignment, t => ∀ rest n, ∃ e n', Expression (t ++ rest) n e rest n'
  | .logicOr, t => ∀ rest n, ∃ e n', Joined levels (t ++ rest) n e rest n'
  | .logicAnd, t => ∀ rest n, ∃ e n', Joined (levels.drop 1) (t ++ rest) n e rest n'
  | .equality, t => ∀ rest n, ∃ e n', Joined (levels.drop 2) (t ++ rest) n e rest n'
  | .comparison, t => ∀ rest n, ∃ e n', Joined (levels.drop 3) (t ++ rest) n e rest n'
  | .term, t => ∀ rest n, ∃ e n', Joined (levels.drop 4) (t ++ rest) n e rest n'
  | .factor, t => ∀ rest n, ∃ e n', Joined (levels.drop 5) (t ++ rest) n e rest n'
  | .unary, t => ∀ rest n, ∃ e n', Unary (t ++ rest) n e rest n'
  | .call, t => ∀ rest n, ∃ e n', Call (t ++ rest) n e rest n'
  | .suffixes, t => ∀ callee rest n, ∃ e n', Calls callee (t ++ rest) n e rest n'
  | .arguments count, t => ∀ rest n, ∃ es n', es.length = count ∧
      Arguments (t ++ rest) n es rest n' ∧ es ≠ []
  | .primary, t => ∀ rest n, ∃ e n', Primary (t ++ rest) n e rest n'
  | .many item, t => Pieces item.Phrased t
  | .optional item, t => t = [] ∨ item.Phrased t
  | .joined operators operand, t =>
      Pieces (fun u => ∃ op v, u = op :: v ∧ op.kind ∈ operators ∧ operand.Phrased v) t

/-- Operators of a level and their operands, after a left operand. -/
theorem more_of_pieces {level : Level} {tighter : List Level} {P : List Token → Prop}
    (hP : ∀ t, P t → ∀ rest n, ∃ e n', Joined tighter (t ++ rest) n e rest n') {t : List Token}
    (h : Pieces (fun u => ∃ op v, u = op :: v ∧ op.kind ∈ level.operators ∧ P v) t) :
    ∀ left rest n, ∃ e n', More level tighter left (t ++ rest) n e rest n' := by
  induction h with
  | nil => exact fun left rest n => ⟨left, n, .done⟩
  | @cons t u ht _ ih =>
    intro left rest n
    obtain ⟨op, v, rfl, hop, hv⟩ := ht
    obtain ⟨right, n₁, hright⟩ := hP v hv (u ++ rest) n
    obtain ⟨e, n', hmore⟩ := ih (level.build n₁ left op right) rest (n₁ + 1)
    refine ⟨e, n', ?_⟩
    rw [List.append_assoc]
    exact .more hop hright hmore

/-- Operands of one level from those of the next tighter one. -/
theorem joined_of_pieces {level : Level} {tighter : List Level} {P : List Token → Prop}
    (hP : ∀ t, P t → ∀ rest n, ∃ e n', Joined tighter (t ++ rest) n e rest n') {t u : List Token}
    (ht : P t)
    (hu : Pieces (fun u => ∃ op v, u = op :: v ∧ op.kind ∈ level.operators ∧ P v) u) :
    ∀ rest n, ∃ e n', Joined (level :: tighter) (t ++ u ++ rest) n e rest n' := by
  intro rest n
  obtain ⟨left, n₁, hleft⟩ := hP t ht (u ++ rest) n
  obtain ⟨e, n', hmore⟩ := more_of_pieces hP hu left rest n₁
  refine ⟨e, n', ?_⟩
  rw [List.append_assoc]
  exact .level hleft hmore

theorem block_of_pieces {t : List Token} (h : Pieces (Symbol.Phrased .declaration) t)
    {closing : Token} (hclosing : closing.kind = .rightBrace) :
    ∀ rest n, ∃ body n', Block (t ++ closing :: rest) n body rest n' := by
  induction h with
  | nil => exact fun rest n => ⟨[], n, .close hclosing⟩
  | @cons t u ht _ ih =>
    intro rest n
    obtain ⟨s, n₁, hs⟩ := ht (u ++ closing :: rest) n
    obtain ⟨body, n', hbody⟩ := ih rest n₁
    refine ⟨s :: body, n', ?_⟩
    rw [List.append_assoc]
    exact .cons hs hbody

theorem methods_of_pieces {t : List Token} (h : Pieces (Symbol.Phrased .function) t)
    {closing : Token} (hclosing : closing.kind = .rightBrace) :
    ∀ rest n, ∃ methods n', Methods (t ++ closing :: rest) n methods rest n' := by
  induction h with
  | nil => exact fun rest n => ⟨[], n, .close hclosing⟩
  | @cons t u ht _ ih =>
    intro rest n
    obtain ⟨m, n₁, hm⟩ := ht (u ++ closing :: rest) n
    obtain ⟨methods, n', hmethods⟩ := ih rest n₁
    refine ⟨m :: methods, n', ?_⟩
    rw [List.append_assoc]
    exact .cons hm hmethods

theorem script_of_pieces {t : List Token} (h : Pieces (Symbol.Phrased .declaration) t) :
    ∀ n, ∃ statements n', Script t n statements n' := by
  induction h with
  | nil => exact fun n => ⟨[], n, .nil⟩
  | @cons t u ht _ ih =>
    intro n
    obtain ⟨s, n₁, hs⟩ := ht u n
    obtain ⟨statements, n', hscript⟩ := ih n₁
    exact ⟨s :: statements, n', .cons hs hscript⟩

theorem optional_of_phrased {t : List Token} (h : Symbol.Phrased (.optional .expression) t) :
    ∀ rest n, ∃ o n', Optional (t ++ rest) n o rest n' := by
  intro rest n
  rcases h with rfl | h
  · exact ⟨none, n, .none⟩
  · obtain ⟨e, n', he⟩ := h rest n
    exact ⟨some e, n', .some he⟩

theorem moreArguments_of_arguments {ts n es rest n'} {comma : Token}
    (hcomma : comma.kind = .comma) (h : Arguments ts n es rest n') (hne : es ≠ []) :
    MoreArguments (comma :: ts) n es rest n' := by
  cases h with
  | none => exact absurd rfl hne
  | some he hmore => exact .more hcomma he hmore

theorem primary_of_word {t : Token}
    (h : t.kind ∈ [.number, .string, .trueWord, .falseWord, .nilWord, .thisWord, .identifier]) :
    ∀ rest n, ∃ e n', Primary (t :: rest) n e rest n' := by
  intro rest n
  by_cases hliteral : t.kind ∈ [.number, .string]
  · exact ⟨_, _, .literal hliteral⟩
  · have hword : t.kind = .trueWord ∨ t.kind = .falseWord ∨ t.kind = .nilWord ∨
        t.kind = .thisWord ∨ t.kind = .identifier := by
      simp only [List.mem_cons, List.not_mem_nil, or_false, not_or] at h hliteral
      simpa [hliteral] using h
    rcases hword with hword | hword | hword | hword | hword
    · exact ⟨_, _, .trueWord hword⟩
    · exact ⟨_, _, .falseWord hword⟩
    · exact ⟨_, _, .nilWord hword⟩
    · exact ⟨_, _, .self hword⟩
    · exact ⟨_, _, .read hword⟩

/-- Tokens whose kinds are derivable from a sort are read as a phrase of the sort. -/
theorem phrased_of_derives {s : Symbol} {ks : List Kind} (h : Derives s ks) :
    ∀ t : List Token, t.map Token.kind = ks → s.Phrased t := by
  induction h with
  | manyNil =>
    intro t ht
    rw [List.map_eq_nil_iff.mp ht]
    exact .nil
  | manyCons _ _ iht ihu =>
    intro t ht
    obtain ⟨t, u, rfl, ht, hu⟩ := List.map_eq_append_iff.mp ht
    exact .cons (iht t ht) (ihu u hu)
  | optionalNone => exact fun t ht => .inl (List.map_eq_nil_iff.mp ht)
  | optionalSome _ ih => exact fun t ht => .inr (ih t ht)
  | joinedNil =>
    intro t ht
    rw [List.map_eq_nil_iff.mp ht]
    exact .nil
  | joinedCons hop _ _ iht ihu =>
    intro t ht
    obtain ⟨_, u, rfl, hopt, hu⟩ := List.map_eq_append_iff.mp ht
    obtain ⟨op, t, rfl, rfl, htail⟩ := List.map_eq_cons_iff.mp hopt
    exact .cons ⟨op, t, rfl, hop, iht t htail⟩ (ihu u hu)
  | program _ ih => exact fun t ht => script_of_pieces (ih t ht)
  | declarationClass _ ih => exact ih
  | declarationFun _ ih => exact ih
  | declarationVar _ ih =>
    intro t ht rest n
    obtain ⟨s, n', hs⟩ := ih t ht rest n
    exact ⟨s, n', .var hs⟩
  | declarationStatement _ ih =>
    intro t ht rest n
    obtain ⟨s, n', hs⟩ := ih t ht rest n
    exact ⟨s, n', .statement hs⟩
  | classDecl _ ih =>
    intro t ht rest n
    simp only [List.map_eq_append_iff, List.map_eq_cons_iff, List.map_eq_nil_iff] at ht
    obtain ⟨_, _, rfl, ⟨word, _, rfl, hword, name, _, rfl, hname, opening, t, rfl, hopening, ht⟩,
      closing, _, rfl, hclosing, rfl⟩ := ht
    obtain ⟨methods, n', hmethods⟩ := methods_of_pieces (ih t ht) hclosing rest n
    exact ⟨_, n', by simpa using Declaration.classDecl hword hname hopening hmethods⟩
  | funDecl _ ih =>
    intro t ht rest n
    obtain ⟨word, t, rfl, hword, ht⟩ := List.map_eq_cons_iff.mp ht
    obtain ⟨r, n', hr⟩ := ih t ht rest n
    exact ⟨_, n', .function hword hr⟩
  | @function count _ _ hmany _ _ iht ihu =>
    intro t ht rest n
    simp only [List.map_eq_append_iff, List.map_eq_cons_iff] at ht
    obtain ⟨_, _, rfl, ⟨name, _, rfl, hname, opening, t, rfl, hopening, ht⟩, closing, u, rfl,
      hclosing, hu⟩ := ht
    obtain ⟨brace, u, rfl, hbrace, hblock⟩ := ihu u hu
    obtain ⟨body, n', hbody⟩ := hblock rest n
    rcases iht t ht with rfl | hparameters
    · exact ⟨_, n', by
        simpa using Function.mk hname hopening .none (Nat.zero_le _) hclosing hbrace hbody⟩
    · obtain ⟨first, names, rfl, hnames⟩ := hparameters (closing :: brace :: (u ++ rest))
      exact ⟨_, n', by simpa using Function.mk hname hopening hnames hmany hclosing hbrace hbody⟩
  | parametersOne =>
    intro t ht rest
    simp only [List.map_eq_cons_iff, List.map_eq_nil_iff] at ht
    obtain ⟨name, _, rfl, hname, rfl⟩ := ht
    exact ⟨name, [], rfl, .one hname⟩
  | parametersMore _ ih =>
    intro t ht rest
    simp only [List.map_eq_cons_iff] at ht
    obtain ⟨name, _, rfl, hname, comma, t, rfl, hcomma, ht⟩ := ht
    obtain ⟨next, names, rfl, hnames⟩ := ih t ht rest
    exact ⟨name, next :: names, rfl, .more hname hcomma hnames⟩
  | varDecl _ ih =>
    intro t ht rest n
    simp only [List.map_eq_append_iff, List.map_eq_cons_iff, List.map_eq_nil_iff] at ht
    obtain ⟨_, _, rfl, ⟨word, _, rfl, hword, name, t, rfl, hname, ht⟩, semicolon, _, rfl, hsemicolon,
      rfl⟩ := ht
    rcases ih t ht with rfl | ⟨equals, u, rfl, hequals, hvalue⟩
    · exact ⟨_, n, .bare hword hname hsemicolon⟩
    · obtain ⟨e, n', he⟩ := hvalue (semicolon :: rest) n
      exact ⟨_, n', by simpa using VarDecl.initialized hword hname hequals he hsemicolon⟩
  | initializerNone => exact fun t ht => .inl (List.map_eq_nil_iff.mp ht)
  | initializerSome _ ih =>
    intro t ht
    obtain ⟨equals, u, rfl, hequals, hu⟩ := List.map_eq_cons_iff.mp ht
    exact .inr ⟨equals, u, rfl, hequals, ih u hu⟩
  | statementExpr _ ih =>
    intro t ht rest n
    obtain ⟨s, n', hs⟩ := ih t ht rest n
    exact ⟨s, n', .expr hs⟩
  | statementFor _ ih => exact ih
  | statementPrint _ ih => exact ih
  | statementWhile _ ih => exact ih
  | statementIf _ ih => exact ih
  | statementBlock _ ih =>
    intro t ht rest n
    obtain ⟨opening, u, rfl, hopening, hblock⟩ := ih t ht
    obtain ⟨body, n', hbody⟩ := hblock rest n
    exact ⟨_, n', .block hopening hbody⟩
  | statementReturn _ ih => exact ih
  | exprStmt _ ih =>
    intro t ht rest n
    simp only [List.map_eq_append_iff, List.map_eq_cons_iff, List.map_eq_nil_iff] at ht
    obtain ⟨t, _, rfl, ht, semicolon, _, rfl, hsemicolon, rfl⟩ := ht
    obtain ⟨e, n', he⟩ := ih t ht (semicolon :: rest) n
    exact ⟨_, n', by simpa using ExprStmt.mk he hsemicolon⟩
  | printStmt _ ih =>
    intro t ht rest n
    simp only [List.map_eq_append_iff, List.map_eq_cons_iff, List.map_eq_nil_iff] at ht
    obtain ⟨_, _, rfl, ⟨word, t, rfl, hword, ht⟩, semicolon, _, rfl, hsemicolon, rfl⟩ := ht
    obtain ⟨e, n', he⟩ := ih t ht (semicolon :: rest) n
    exact ⟨_, n', by simpa using Statement.print hword he hsemicolon⟩
  | returnStmt _ ih =>
    intro t ht rest n
    simp only [List.map_eq_append_iff, List.map_eq_cons_iff, List.map_eq_nil_iff] at ht
    obtain ⟨_, _, rfl, ⟨word, t, rfl, hword, ht⟩, semicolon, _, rfl, hsemicolon, rfl⟩ := ht
    obtain ⟨o, n', ho⟩ := optional_of_phrased (ih t ht) (semicolon :: rest) n
    exact ⟨_, n', by simpa using Statement.ret hword ho hsemicolon⟩
  | forStmt _ _ _ _ iht ihu ihv ihw =>
    intro t ht rest n
    simp only [List.map_eq_append_iff, List.map_eq_cons_iff] at ht
    obtain ⟨_, _, rfl, ⟨_, _, rfl, ⟨_, u, rfl, ⟨word, _, rfl, hword, opening, t, rfl, hopening, ht⟩,
      hu⟩, semicolon, v, rfl, hsemicolon, hv⟩, closing, w, rfl, hclosing, hw⟩ := ht
    obtain ⟨first, n₁, hfirst⟩ := iht t ht (u ++ semicolon :: (v ++ closing :: (w ++ rest))) n
    obtain ⟨condition, n₂, hcondition⟩ :=
      optional_of_phrased (ihu u hu) (semicolon :: (v ++ closing :: (w ++ rest))) n₁
    obtain ⟨increment, n₃, hincrement⟩ :=
      optional_of_phrased (ihv v hv) (closing :: (w ++ rest)) n₂
    obtain ⟨body, n₄, hbody⟩ := ihw w hw rest n₃
    have hloop := Statement.forLoop hword hopening hfirst hcondition hsemicolon hincrement hclosing
      hbody
    exact ⟨_, _, by simpa using hloop⟩
  | forFirstVar _ ih =>
    intro t ht rest n
    obtain ⟨s, n', hs⟩ := ih t ht rest n
    exact ⟨_, n', .var hs⟩
  | forFirstExpr _ ih =>
    intro t ht rest n
    obtain ⟨s, n', hs⟩ := ih t ht rest n
    exact ⟨_, n', .expr hs⟩
  | forFirstNone =>
    intro t ht rest n
    simp only [List.map_eq_cons_iff, List.map_eq_nil_iff] at ht
    obtain ⟨semicolon, _, rfl, hsemicolon, rfl⟩ := ht
    exact ⟨_, n, .none hsemicolon⟩
  | whileStmt _ _ iht ihu =>
    intro t ht rest n
    simp only [List.map_eq_append_iff, List.map_eq_cons_iff] at ht
    obtain ⟨_, _, rfl, ⟨word, _, rfl, hword, opening, t, rfl, hopening, ht⟩, closing, u, rfl,
      hclosing, hu⟩ := ht
    obtain ⟨condition, n₁, hcondition⟩ := iht t ht (closing :: (u ++ rest)) n
    obtain ⟨body, n', hbody⟩ := ihu u hu rest n₁
    exact ⟨_, n', by simpa using Statement.loop hword hopening hcondition hclosing hbody⟩
  | ifStmt _ _ iht ihu =>
    intro t ht rest n
    simp only [List.map_eq_append_iff, List.map_eq_cons_iff] at ht
    obtain ⟨_, _, rfl, ⟨word, _, rfl, hword, opening, t, rfl, hopening, ht⟩, closing, u, rfl,
      hclosing, hu⟩ := ht
    obtain ⟨condition, n₁, hcondition⟩ := iht t ht (closing :: (u ++ rest)) n
    obtain ⟨body, n', hbody⟩ := ihu u hu rest n₁
    exact ⟨_, n', by simpa using Statement.ifThen hword hopening hcondition hclosing hbody⟩
  | ifElseStmt _ _ _ iht ihu ihv =>
    intro t ht rest n
    simp only [List.map_eq_append_iff, List.map_eq_cons_iff] at ht
    obtain ⟨_, _, rfl, ⟨_, _, rfl, ⟨word, _, rfl, hword, opening, t, rfl, hopening, ht⟩, closing, u,
      rfl, hclosing, hu⟩, elseWord, v, rfl, helse, hv⟩ := ht
    obtain ⟨condition, n₁, hcondition⟩ := iht t ht (closing :: (u ++ elseWord :: (v ++ rest))) n
    obtain ⟨thenBranch, n₂, hthen⟩ := ihu u hu (elseWord :: (v ++ rest)) n₁
    obtain ⟨elseBranch, n', helseBranch⟩ := ihv v hv rest n₂
    have hif := Statement.ifElse hword hopening hcondition hclosing hthen helse helseBranch
    exact ⟨_, n', by simpa using hif⟩
  | block _ ih =>
    intro t ht
    simp only [List.map_eq_append_iff, List.map_eq_cons_iff, List.map_eq_nil_iff] at ht
    obtain ⟨_, _, rfl, ⟨opening, t, rfl, hopening, ht⟩, closing, _, rfl, hclosing, rfl⟩ := ht
    refine ⟨opening, t ++ [closing], rfl, hopening, fun rest n => ?_⟩
    rw [List.append_assoc]
    exact block_of_pieces (ih t ht) hclosing rest n
  | expression _ ih => exact ih
  | assignmentName _ ih =>
    intro t ht rest n
    simp only [List.map_eq_cons_iff] at ht
    obtain ⟨name, _, rfl, hname, equals, t, rfl, hequals, ht⟩ := ht
    obtain ⟨e, n', he⟩ := ih t ht rest (n + 1)
    exact ⟨_, _, .assign hname hequals he⟩
  | assignmentProperty _ _ iht ihu =>
    intro t ht rest n
    simp only [List.map_eq_append_iff, List.map_eq_cons_iff] at ht
    obtain ⟨t, _, rfl, ht, dot, _, rfl, hdot, name, _, rfl, hname, equals, u, rfl, hequals, hu⟩ := ht
    obtain ⟨object, n₁, hobject⟩ := iht t ht (dot :: name :: equals :: (u ++ rest)) n
    obtain ⟨e, n', he⟩ := ihu u hu rest (n₁ + 1)
    exact ⟨_, _, by simpa using Expression.setProperty hobject hdot hname hequals he⟩
  | assignmentPlain _ ih =>
    intro t ht rest n
    obtain ⟨e, n', he⟩ := ih t ht rest n
    exact ⟨e, n', .plain he⟩
  | logicOr _ _ iht ihu | logicAnd _ _ iht ihu | equality _ _ iht ihu | comparison _ _ iht ihu
  | term _ _ iht ihu =>
    intro t ht
    obtain ⟨t, u, rfl, ht, hu⟩ := List.map_eq_append_iff.mp ht
    exact joined_of_pieces (fun _ h => h) (iht t ht) (ihu u hu)
  | factor _ _ iht ihu =>
    intro t ht
    obtain ⟨t, u, rfl, ht, hu⟩ := List.map_eq_append_iff.mp ht
    refine joined_of_pieces (P := Symbol.Phrased .unary) (fun t h rest n => ?_) (iht t ht) (ihu u hu)
    obtain ⟨e, n', he⟩ := h rest n
    exact ⟨e, n', .operand he⟩
  | unaryOperator hop _ ih =>
    intro t ht rest n
    obtain ⟨op, t, rfl, rfl, htail⟩ := List.map_eq_cons_iff.mp ht
    obtain ⟨e, n', he⟩ := ih t htail rest n
    exact ⟨_, _, .operator hop he⟩
  | unaryCall _ ih =>
    intro t ht rest n
    obtain ⟨e, n', he⟩ := ih t ht rest n
    exact ⟨e, n', .call he⟩
  | call _ _ iht ihu =>
    intro t ht rest n
    obtain ⟨t, u, rfl, ht, hu⟩ := List.map_eq_append_iff.mp ht
    obtain ⟨callee, n₁, hcallee⟩ := iht t ht (u ++ rest) n
    obtain ⟨e, n', he⟩ := ihu u hu callee rest n₁
    exact ⟨e, n', by simpa using Call.mk hcallee he⟩
  | suffixesNil =>
    intro t ht callee rest n
    rw [List.map_eq_nil_iff.mp ht]
    exact ⟨callee, n, .done⟩
  | suffixesCall hmany _ _ iht ihu =>
    intro t ht callee rest n
    simp only [List.map_eq_append_iff, List.map_eq_cons_iff] at ht
    obtain ⟨_, _, rfl, ⟨opening, t, rfl, hopening, ht⟩, paren, u, rfl, hparen, hu⟩ := ht
    rcases iht t ht with rfl | harguments
    · obtain ⟨e, n', he⟩ := ihu u hu (.call n callee paren []) rest (n + 1)
      exact ⟨e, n', by simpa using Calls.call hopening .none (Nat.zero_le _) hparen he⟩
    · obtain ⟨es, n₁, rfl, hes, -⟩ := harguments (paren :: (u ++ rest)) n
      obtain ⟨e, n', he⟩ := ihu u hu (.call n₁ callee paren es) rest (n₁ + 1)
      exact ⟨e, n', by simpa using Calls.call hopening hes hmany hparen he⟩
  | suffixesProperty _ ih =>
    intro t ht callee rest n
    simp only [List.map_eq_cons_iff] at ht
    obtain ⟨dot, _, rfl, hdot, name, u, rfl, hname, hu⟩ := ht
    obtain ⟨e, n', he⟩ := ih u hu (.property n callee name) rest (n + 1)
    exact ⟨e, n', .property hdot hname he⟩
  | argumentsOne _ ih =>
    intro t ht rest n
    obtain ⟨e, n', he⟩ := ih t ht rest n
    exact ⟨[e], n', rfl, .some he .done, by simp⟩
  | argumentsMore _ _ iht ihu =>
    intro t ht rest n
    simp only [List.map_eq_append_iff, List.map_eq_cons_iff] at ht
    obtain ⟨t, _, rfl, ht, comma, u, rfl, hcomma, hu⟩ := ht
    obtain ⟨e, n₁, he⟩ := iht t ht (comma :: (u ++ rest)) n
    obtain ⟨es, n', rfl, hes, hne⟩ := ihu u hu rest n₁
    refine ⟨e :: es, n', rfl, ?_, by simp⟩
    simpa using Arguments.some he (moreArguments_of_arguments hcomma hes hne)
  | primaryWord hk =>
    intro t ht rest n
    simp only [List.map_eq_cons_iff, List.map_eq_nil_iff] at ht
    obtain ⟨t, _, rfl, rfl, rfl⟩ := ht
    exact primary_of_word hk rest n
  | primaryGroup _ ih =>
    intro t ht rest n
    simp only [List.map_eq_append_iff, List.map_eq_cons_iff, List.map_eq_nil_iff] at ht
    obtain ⟨_, _, rfl, ⟨opening, t, rfl, hopening, ht⟩, closing, _, rfl, hclosing, rfl⟩ := ht
    obtain ⟨e, n', he⟩ := ih t ht (closing :: rest) n
    exact ⟨_, _, by simpa using Primary.group hopening he hclosing⟩

/-! ## 3. Acceptance -/

/-- The tokens before the end of the input. -/
def words (tokens : List Token) : List Token :=
  tokens.takeWhile (·.kind ≠ .endOfInput)

/-- Reading hands out identities from the given one on, also when there are faults, and its faults
are static. -/
theorem parse_grown (tokens : List Token) (n : Nat) :
    n ≤ (parse tokens n).nextId ∧ ∀ fault ∈ (parse tokens n).faults, fault.isStatic = true := by
  have hsound := sound_script (.start tokens n)
  unfold parse
  cases hread : script (.start tokens n) with
  | ok statements s =>
    rw [hread] at hsound
    obtain ⟨hid, new, hnew, hstatic⟩ := hsound.1
    refine ⟨hid, ?_⟩
    dsimp only
    rw [hnew]
    exact hstatic
  | error fault s =>
    rw [hread] at hsound
    obtain ⟨hfault, hid, new, hnew, hstatic⟩ := hsound
    refine ⟨hid, ?_⟩
    dsimp only
    rw [hnew]
    intro f hf
    rcases List.mem_append.mp hf with hmem | hmem
    · exact hstatic f hmem
    · rw [List.mem_singleton.mp hmem]
      exact hfault

/-- Reading without fault gives the trees of a script. -/
theorem script_of_parse {tokens : List Token} {n : Nat} (h : (parse tokens n).faults = []) :
    Script (words tokens) n (parse tokens n).statements (parse tokens n).nextId := by
  have hsound := sound_script (.start tokens n)
  unfold parse at h ⊢
  cases hread : script (.start tokens n) with
  | ok statements s =>
    rw [hread] at h hsound
    exact (hsound.2 h).2
  | error fault s =>
    rw [hread] at h
    simp at h

/-- The trees of a script are read without fault. -/
theorem parse_of_script {tokens : List Token} {n n' : Nat} {statements : List Stmt}
    (h : Script (words tokens) n statements n') : parse tokens n = ⟨statements, [], n'⟩ := by
  have hread : script (.start tokens n) = .ok statements ⟨[], stopOf tokens, [], n'⟩ :=
    takes_script h (stopOf tokens) []
  unfold parse
  rw [hread]

/-- Reading records no fault exactly if the kinds of the tokens before the end of the input are
derivable from `program`. -/
theorem parse_accepts_iff (tokens : List Token) (nextId : Nat) :
    (parse tokens nextId).faults = [] ↔
      Derives .program ((tokens.takeWhile (·.kind ≠ .endOfInput)).map Token.kind) := by
  constructor
  · intro h
    exact (script_of_parse h).derives
  · intro h
    obtain ⟨statements, n', hscript⟩ := phrased_of_derives h (words tokens) rfl nextId
    rw [parse_of_script hscript]

end ScriptLang.Grammar
