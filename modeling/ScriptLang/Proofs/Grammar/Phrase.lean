/-
ScriptLang.Proofs.Grammar.Phrase — phrases together with their trees.

A phrase is a stretch at the front of a list of tokens. Each relation below
has the shape `Sort ts n tree rest n'`: the tokens `ts` begin with a phrase of
the sort, the tokens `rest` follow it, and reading it builds `tree` and hands
out the identities from `n` up to `n'`, in the order in which the expressions
are completed.

The rules are those of `Derives`, and they look at nothing beyond the phrase,
so a phrase stays one whatever follows it. Repetitions are read from the left:
`More` and `Calls` carry the tree built so far.
-/
import ScriptLang.Grammar
import ScriptLang.Proofs.Grammar.Language

namespace ScriptLang.Grammar.Phrase

/-! ## 1. Expressions -/

mutual
/-- An expression of any kind. -/
inductive Expression : List Token → Nat → Expr → List Token → Nat → Prop where
  | plain {ts n e rest n'} : Joined levels ts n e rest n' → Expression ts n e rest n'
  | assign {name equals : Token} {ts n value rest n'} :
      name.kind = .identifier → equals.kind = .equal →
      Expression ts (n + 1) value rest n' →
      Expression (name :: equals :: ts) n (.assign n' name value) rest (n' + 1)
  | setProperty {dot name equals : Token} {ts n object mid n₁ value rest n'} :
      Call ts n object (dot :: name :: equals :: mid) n₁ →
      dot.kind = .dot → name.kind = .identifier → equals.kind = .equal →
      Expression mid (n₁ + 1) value rest n' →
      Expression ts n (.setProperty n' object name value) rest (n' + 1)

/-- Operands joined by the operators of some levels. -/
inductive Joined : List Level → List Token → Nat → Expr → List Token → Nat → Prop where
  | operand {ts n e rest n'} : Unary ts n e rest n' → Joined [] ts n e rest n'
  | level {level tighter ts n left mid n₁ e rest n'} :
      Joined tighter ts n left mid n₁ → More level tighter left mid n₁ e rest n' →
      Joined (level :: tighter) ts n e rest n'

/-- Operators of a level with their right operands, after a left operand. -/
inductive More : Level → List Level → Expr → List Token → Nat → Expr → List Token → Nat →
    Prop where
  | done {level tighter left ts n} : More level tighter left ts n left ts n
  | more {level tighter left} {op : Token} {ts n right mid n₁ e rest n'} :
      op.kind ∈ level.operators → Joined tighter ts n right mid n₁ →
      More level tighter (level.build n₁ left op right) mid (n₁ + 1) e rest n' →
      More level tighter left (op :: ts) n e rest n'

/-- A call under any number of unary operators. -/
inductive Unary : List Token → Nat → Expr → List Token → Nat → Prop where
  | operator {op : Token} {ts n operand rest n'} :
      op.kind ∈ [.bang, .minus] → Unary ts n operand rest n' →
      Unary (op :: ts) n (.unary n' op operand) rest (n' + 1)
  | call {ts n e rest n'} : Call ts n e rest n' → Unary ts n e rest n'

/-- A primary with argument lists and property names after it. -/
inductive Call : List Token → Nat → Expr → List Token → Nat → Prop where
  | mk {ts n callee mid n₁ e rest n'} :
      Primary ts n callee mid n₁ → Calls callee mid n₁ e rest n' → Call ts n e rest n'

/-- Argument lists and property names after a callee. -/
inductive Calls : Expr → List Token → Nat → Expr → List Token → Nat → Prop where
  | done {callee ts n} : Calls callee ts n callee ts n
  | call {callee} {opening paren : Token} {ts n arguments mid n₁ e rest n'} :
      opening.kind = .leftParen → Arguments ts n arguments (paren :: mid) n₁ →
      arguments.length ≤ maxArity → paren.kind = .rightParen →
      Calls (.call n₁ callee paren arguments) mid (n₁ + 1) e rest n' →
      Calls callee (opening :: ts) n e rest n'
  | property {callee} {dot name : Token} {ts n e rest n'} :
      dot.kind = .dot → name.kind = .identifier →
      Calls (.property n callee name) ts (n + 1) e rest n' →
      Calls callee (dot :: name :: ts) n e rest n'

/-- The arguments between the parentheses of a call. -/
inductive Arguments : List Token → Nat → List Expr → List Token → Nat → Prop where
  | none {ts n} : Arguments ts n [] ts n
  | some {ts n e mid n₁ es rest n'} :
      Expression ts n e mid n₁ → MoreArguments mid n₁ es rest n' →
      Arguments ts n (e :: es) rest n'

/-- Arguments after the first, each with a comma before it. -/
inductive MoreArguments : List Token → Nat → List Expr → List Token → Nat → Prop where
  | done {ts n} : MoreArguments ts n [] ts n
  | more {comma : Token} {ts n e mid n₁ es rest n'} :
      comma.kind = .comma → Expression ts n e mid n₁ → MoreArguments mid n₁ es rest n' →
      MoreArguments (comma :: ts) n (e :: es) rest n'

/-- Words, literals and parenthesised expressions. -/
inductive Primary : List Token → Nat → Expr → List Token → Nat → Prop where
  | falseWord {t : Token} {ts n} : t.kind = .falseWord →
      Primary (t :: ts) n (.literal n (.bool false)) ts (n + 1)
  | trueWord {t : Token} {ts n} : t.kind = .trueWord →
      Primary (t :: ts) n (.literal n (.bool true)) ts (n + 1)
  | nilWord {t : Token} {ts n} : t.kind = .nilWord →
      Primary (t :: ts) n (.literal n .nil) ts (n + 1)
  | literal {t : Token} {ts n} : t.kind ∈ [.number, .string] →
      Primary (t :: ts) n (.literal n (.ofLiteral t.literal)) ts (n + 1)
  | self {t : Token} {ts n} : t.kind = .thisWord →
      Primary (t :: ts) n (.self n t) ts (n + 1)
  | read {t : Token} {ts n} : t.kind = .identifier →
      Primary (t :: ts) n (.read n t) ts (n + 1)
  | group {opening closing : Token} {ts n inner rest n'} :
      opening.kind = .leftParen → Expression ts n inner (closing :: rest) n' →
      closing.kind = .rightParen →
      Primary (opening :: ts) n (.group n' inner) rest (n' + 1)
end

/-- An expression or nothing. -/
inductive Optional : List Token → Nat → Option Expr → List Token → Nat → Prop where
  | none {ts n} : Optional ts n .none ts n
  | some {ts n e rest n'} : Expression ts n e rest n' → Optional ts n (.some e) rest n'

/-! ## 2. Statements without statements in them -/

/-- The parameters between the parentheses of a routine. -/
inductive Parameters : List Token → List Token → List Token → Prop where
  | none {ts} : Parameters ts [] ts
  | one {name : Token} {ts} : name.kind = .identifier → Parameters (name :: ts) [name] ts
  | more {name comma next : Token} {ts names rest} :
      name.kind = .identifier → comma.kind = .comma →
      Parameters ts (next :: names) rest →
      Parameters (name :: comma :: ts) (name :: next :: names) rest

/-- A variable declaration. -/
inductive VarDecl : List Token → Nat → Stmt → List Token → Nat → Prop where
  | bare {word name semicolon : Token} {rest n} :
      word.kind = .varWord → name.kind = .identifier → semicolon.kind = .semicolon →
      VarDecl (word :: name :: semicolon :: rest) n (.var name .none) rest n
  | initialized {word name equals semicolon : Token} {ts n e rest n'} :
      word.kind = .varWord → name.kind = .identifier → equals.kind = .equal →
      Expression ts n e (semicolon :: rest) n' → semicolon.kind = .semicolon →
      VarDecl (word :: name :: equals :: ts) n (.var name (.some e)) rest n'

/-- An expression and its semicolon. -/
inductive ExprStmt : List Token → Nat → Stmt → List Token → Nat → Prop where
  | mk {semicolon : Token} {ts n e rest n'} :
      Expression ts n e (semicolon :: rest) n' → semicolon.kind = .semicolon →
      ExprStmt ts n (.expression e) rest n'

/-- The first clause of a `for` statement. -/
inductive ForFirst : List Token → Nat → Option Stmt → List Token → Nat → Prop where
  | none {semicolon : Token} {rest n} : semicolon.kind = .semicolon →
      ForFirst (semicolon :: rest) n .none rest n
  | var {ts n s rest n'} : VarDecl ts n s rest n' → ForFirst ts n (.some s) rest n'
  | expr {ts n s rest n'} : ExprStmt ts n s rest n' → ForFirst ts n (.some s) rest n'

/-- The condition of a `for` loop, which is `true` when it is left out, and the next unused
identity after the one that a condition left out needs. -/
def forCondition (n : Nat) : Option Expr → Expr × Nat
  | .some condition => (condition, n)
  | .none => (.literal n (.bool true), n + 1)

/-! ## 3. Statements and declarations -/

mutual
/-- A statement; it is `dangling` if it ends with an `if` that has no `else`. -/
inductive Statement : Bool → List Token → Nat → Stmt → List Token → Nat → Prop where
  | expr {ts n s rest n'} : ExprStmt ts n s rest n' → Statement false ts n s rest n'
  | print {word semicolon : Token} {ts n e rest n'} :
      word.kind = .printWord → Expression ts n e (semicolon :: rest) n' →
      semicolon.kind = .semicolon → Statement false (word :: ts) n (.print e) rest n'
  | ret {word semicolon : Token} {ts n e rest n'} :
      word.kind = .returnWord → Optional ts n e (semicolon :: rest) n' →
      semicolon.kind = .semicolon → Statement false (word :: ts) n (.ret word e) rest n'
  | block {opening : Token} {ts n body rest n'} :
      opening.kind = .leftBrace → Block ts n body rest n' →
      Statement false (opening :: ts) n (.block body) rest n'
  | loop {word opening closing : Token} {d ts n condition mid n₁ body rest n'} :
      word.kind = .whileWord → opening.kind = .leftParen →
      Expression ts n condition (closing :: mid) n₁ → closing.kind = .rightParen →
      Statement d mid n₁ body rest n' →
      Statement d (word :: opening :: ts) n (.loop condition body) rest n'
  | ifThen {word opening closing : Token} {d ts n condition mid n₁ thenBranch rest n'} :
      word.kind = .ifWord → opening.kind = .leftParen →
      Expression ts n condition (closing :: mid) n₁ → closing.kind = .rightParen →
      Statement d mid n₁ thenBranch rest n' →
      Statement true (word :: opening :: ts) n (.ifThen condition thenBranch) rest n'
  | ifElse {word opening closing elseWord : Token} {d ts n condition mid n₁ thenBranch last n₂}
      {elseBranch rest n'} :
      word.kind = .ifWord → opening.kind = .leftParen →
      Expression ts n condition (closing :: mid) n₁ → closing.kind = .rightParen →
      Statement false mid n₁ thenBranch (elseWord :: last) n₂ → elseWord.kind = .elseWord →
      Statement d last n₂ elseBranch rest n' →
      Statement d (word :: opening :: ts) n (.ifElse condition thenBranch elseBranch) rest n'
  | forLoop {word opening closing semicolon : Token} {d ts n first ts₁ n₁ condition ts₂ n₂}
      {increment ts₃ n₃ body rest n'} :
      word.kind = .forWord → opening.kind = .leftParen →
      ForFirst ts n first ts₁ n₁ → Optional ts₁ n₁ condition (semicolon :: ts₂) n₂ →
      semicolon.kind = .semicolon → Optional ts₂ n₂ increment (closing :: ts₃) n₃ →
      closing.kind = .rightParen → Statement d ts₃ n₃ body rest n' →
      Statement d (word :: opening :: ts) n
        (forLoop first (forCondition n' condition).1 increment body) rest
        (forCondition n' condition).2

/-- Declarations and the brace that closes a block. -/
inductive Block : List Token → Nat → List Stmt → List Token → Nat → Prop where
  | close {closing : Token} {rest n} : closing.kind = .rightBrace →
      Block (closing :: rest) n [] rest n
  | cons {ts n s mid n₁ body rest n'} :
      Declaration ts n s mid n₁ → Block mid n₁ body rest n' → Block ts n (s :: body) rest n'

/-- A declaration. -/
inductive Declaration : List Token → Nat → Stmt → List Token → Nat → Prop where
  | classDecl {word name opening : Token} {ts n methods rest n'} :
      word.kind = .classWord → name.kind = .identifier → opening.kind = .leftBrace →
      Methods ts n methods rest n' →
      Declaration (word :: name :: opening :: ts) n (.classDecl name methods) rest n'
  | function {word : Token} {ts n routine rest n'} :
      word.kind = .funWord → Function ts n routine rest n' →
      Declaration (word :: ts) n (.function routine) rest n'
  | var {ts n s rest n'} : VarDecl ts n s rest n' → Declaration ts n s rest n'
  | statement {d ts n s rest n'} : Statement d ts n s rest n' → Declaration ts n s rest n'

/-- Methods and the brace that closes a class. -/
inductive Methods : List Token → Nat → List Routine → List Token → Nat → Prop where
  | close {closing : Token} {rest n} : closing.kind = .rightBrace →
      Methods (closing :: rest) n [] rest n
  | cons {ts n method mid n₁ methods rest n'} :
      Function ts n method mid n₁ → Methods mid n₁ methods rest n' →
      Methods ts n (method :: methods) rest n'

/-- The name, the parameters and the body of a routine. -/
inductive Function : List Token → Nat → Routine → List Token → Nat → Prop where
  | mk {name opening closing brace : Token} {ts parameters mid n body rest n'} :
      name.kind = .identifier → opening.kind = .leftParen →
      Parameters ts parameters (closing :: brace :: mid) → parameters.length ≤ maxArity →
      closing.kind = .rightParen → brace.kind = .leftBrace → Block mid n body rest n' →
      Function (name :: opening :: ts) n ⟨name, parameters, body⟩ rest n'
end

/-- Declarations up to the end of the tokens. -/
inductive Script : List Token → Nat → List Stmt → Nat → Prop where
  | nil {n} : Script [] n [] n
  | cons {ts n s mid n₁ statements n'} :
      Declaration ts n s mid n₁ → Script mid n₁ statements n' → Script ts n (s :: statements) n'

/-! ## 4. First words -/

/-- The kinds that a primary can begin with. -/
def primaryWords : List Kind :=
  [.falseWord, .trueWord, .nilWord, .number, .string, .thisWord, .identifier, .leftParen]

/-- The kinds that an expression can begin with. -/
def expressionWords : List Kind := .bang :: .minus :: primaryWords

/-- The kinds that a statement can begin with. -/
def statementWords : List Kind :=
  expressionWords ++ [.forWord, .ifWord, .printWord, .returnWord, .whileWord, .leftBrace]

/-- The kinds that a declaration can begin with. -/
def declarationWords : List Kind :=
  statementWords ++ [.classWord, .funWord, .varWord]

/-- The tokens begin with one of the kinds. -/
def Begins (kinds : List Kind) (ts : List Token) : Prop :=
  ∃ t ts', ts = t :: ts' ∧ t.kind ∈ kinds

theorem Begins.cons {kinds : List Kind} {t : Token} {ts : List Token} (h : t.kind ∈ kinds) :
    Begins kinds (t :: ts) :=
  ⟨t, ts, rfl, h⟩

theorem Begins.mono {kinds kinds' : List Kind} {ts : List Token} (h : Begins kinds ts)
    (hsub : ∀ k ∈ kinds, k ∈ kinds') : Begins kinds' ts := by
  obtain ⟨t, ts, rfl, hkind⟩ := h
  exact .cons (hsub _ hkind)

theorem Primary.begins {ts n e rest n'} (h : Primary ts n e rest n') :
    Begins primaryWords ts := by
  cases h with
  | literal hkind => exact (Begins.cons hkind).mono (by decide)
  | falseWord hkind | trueWord hkind | nilWord hkind | self hkind | read hkind
  | group hkind => exact .cons (by rw [hkind]; decide)

theorem Call.begins {ts n e rest n'} : Call ts n e rest n' → Begins primaryWords ts
  | .mk hprimary _ => hprimary.begins

theorem Unary.begins {ts n e rest n'} : Unary ts n e rest n' → Begins expressionWords ts
  | .operator hop _ => (Begins.cons hop).mono (by decide)
  | .call h => h.begins.mono (by decide)

theorem Joined.begins {ls ts n e rest n'} : Joined ls ts n e rest n' → Begins expressionWords ts
  | .operand h => h.begins
  | .level hleft _ => hleft.begins

theorem Expression.begins {ts n e rest n'} : Expression ts n e rest n' → Begins expressionWords ts
  | .plain h => h.begins
  | .assign hname _ _ => .cons (by rw [hname]; decide)
  | .setProperty hcall .. => hcall.begins.mono (by decide)

theorem ExprStmt.begins {ts n s rest n'} : ExprStmt ts n s rest n' → Begins expressionWords ts
  | .mk h _ => h.begins

theorem VarDecl.begins {ts n s rest n'} : VarDecl ts n s rest n' → Begins [.varWord] ts
  | .bare hword _ _ => .cons (by rw [hword]; decide)
  | .initialized hword .. => .cons (by rw [hword]; decide)

theorem Statement.begins {d ts n s rest n'} (h : Statement d ts n s rest n') :
    Begins statementWords ts := by
  cases h with
  | expr h => exact h.begins.mono (by decide)
  | print hword | ret hword | block hword | loop hword | ifThen hword | ifElse hword
  | forLoop hword => exact .cons (by rw [hword]; decide)

theorem Declaration.begins {ts n s rest n'} (h : Declaration ts n s rest n') :
    Begins declarationWords ts := by
  cases h with
  | var h => exact h.begins.mono (by decide)
  | statement h => exact h.begins.mono (by decide)
  | classDecl hword | function hword => exact .cons (by rw [hword]; decide)

theorem Function.begins {ts n r rest n'} (h : Function ts n r rest n') :
    Begins [.identifier] ts := by
  cases h with
  | mk hname => exact .cons (by rw [hname]; decide)

/-! ## 5. Lengths

A phrase other than a repetition uses up at least one token. -/

mutual
theorem Expression.shorter {ts n e rest n'} :
    Expression ts n e rest n' → rest.length < ts.length
  | .plain h => h.shorter
  | .assign _ _ h => by
      have := h.shorter
      simp only [List.length_cons]
      omega
  | .setProperty hcall _ _ _ h => by
      have := hcall.shorter
      have := h.shorter
      simp only [List.length_cons] at *
      omega

theorem Joined.shorter {ls ts n e rest n'} : Joined ls ts n e rest n' → rest.length < ts.length
  | .operand h => h.shorter
  | .level hleft hmore => Nat.lt_of_le_of_lt hmore.shorter hleft.shorter

theorem More.shorter {level tighter left ts n e rest n'} :
    More level tighter left ts n e rest n' → rest.length ≤ ts.length
  | .done => Nat.le_refl _
  | .more _ hright hmore => by
      have := hright.shorter
      have := hmore.shorter
      simp only [List.length_cons]
      omega

theorem Unary.shorter {ts n e rest n'} : Unary ts n e rest n' → rest.length < ts.length
  | .operator _ h => Nat.lt_succ_of_lt h.shorter
  | .call h => h.shorter

theorem Call.shorter {ts n e rest n'} : Call ts n e rest n' → rest.length < ts.length
  | .mk hprimary hcalls => Nat.lt_of_le_of_lt hcalls.shorter hprimary.shorter

theorem Calls.shorter {callee ts n e rest n'} :
    Calls callee ts n e rest n' → rest.length ≤ ts.length
  | .done => Nat.le_refl _
  | .call _ hargs _ _ h => by
      have := hargs.shorter
      have := h.shorter
      simp only [List.length_cons] at *
      omega
  | .property _ _ h => by
      have := h.shorter
      simp only [List.length_cons]
      omega

theorem Arguments.shorter {ts n es rest n'} :
    Arguments ts n es rest n' → rest.length ≤ ts.length
  | .none => Nat.le_refl _
  | .some h hmore => Nat.le_trans hmore.shorter (Nat.le_of_lt h.shorter)

theorem MoreArguments.shorter {ts n es rest n'} :
    MoreArguments ts n es rest n' → rest.length ≤ ts.length
  | .done => Nat.le_refl _
  | .more _ h hmore => by
      have := h.shorter
      have := hmore.shorter
      simp only [List.length_cons]
      omega

theorem Primary.shorter {ts n e rest n'} : Primary ts n e rest n' → rest.length < ts.length
  | .falseWord _ => Nat.lt_succ_self _
  | .trueWord _ => Nat.lt_succ_self _
  | .nilWord _ => Nat.lt_succ_self _
  | .literal _ => Nat.lt_succ_self _
  | .self _ => Nat.lt_succ_self _
  | .read _ => Nat.lt_succ_self _
  | .group _ h _ => by
      have := h.shorter
      simp only [List.length_cons] at *
      omega
end

theorem Optional.shorter {ts n e rest n'} : Optional ts n e rest n' → rest.length ≤ ts.length
  | .none => Nat.le_refl _
  | .some h => Nat.le_of_lt h.shorter

theorem Parameters.shorter {ts names rest} (h : Parameters ts names rest) :
    rest.length ≤ ts.length := by
  induction h with
  | none => exact Nat.le_refl _
  | one _ => exact Nat.le_succ _
  | more _ _ _ ih =>
    simp only [List.length_cons]
    omega

theorem VarDecl.shorter {ts n s rest n'} : VarDecl ts n s rest n' → rest.length < ts.length
  | .bare _ _ _ => by simp only [List.length_cons]; omega
  | .initialized _ _ _ h _ => by
      have := h.shorter
      simp only [List.length_cons] at *
      omega

theorem ExprStmt.shorter {ts n s rest n'} : ExprStmt ts n s rest n' → rest.length < ts.length
  | .mk h _ => Nat.lt_of_succ_lt h.shorter

theorem ForFirst.shorter {ts n s rest n'} : ForFirst ts n s rest n' → rest.length < ts.length
  | .none _ => Nat.lt_succ_self _
  | .var h => h.shorter
  | .expr h => h.shorter

mutual
theorem Statement.shorter {d ts n s rest n'} :
    Statement d ts n s rest n' → rest.length < ts.length
  | .expr h => h.shorter
  | .print _ h _ => by
      have := h.shorter
      simp only [List.length_cons] at *
      omega
  | .ret _ h _ => by
      have := h.shorter
      simp only [List.length_cons] at *
      omega
  | .block _ h => Nat.lt_succ_of_lt h.shorter
  | .loop _ _ hcondition _ hbody => by
      have := hcondition.shorter
      have := hbody.shorter
      simp only [List.length_cons] at *
      omega
  | .ifThen _ _ hcondition _ hthen => by
      have := hcondition.shorter
      have := hthen.shorter
      simp only [List.length_cons] at *
      omega
  | .ifElse _ _ hcondition _ hthen _ helse => by
      have := hcondition.shorter
      have := hthen.shorter
      have := helse.shorter
      simp only [List.length_cons] at *
      omega
  | .forLoop _ _ hfirst hcondition _ hincrement _ hbody => by
      have := hfirst.shorter
      have := hcondition.shorter
      have := hincrement.shorter
      have := hbody.shorter
      simp only [List.length_cons] at *
      omega

theorem Block.shorter {ts n body rest n'} : Block ts n body rest n' → rest.length < ts.length
  | .close _ => Nat.lt_succ_self _
  | .cons hs hbody => Nat.lt_trans hbody.shorter hs.shorter

theorem Declaration.shorter {ts n s rest n'} :
    Declaration ts n s rest n' → rest.length < ts.length
  | .classDecl _ _ _ h => by
      have := h.shorter
      simp only [List.length_cons]
      omega
  | .function _ h => Nat.lt_succ_of_lt h.shorter
  | .var h => h.shorter
  | .statement h => h.shorter

theorem Methods.shorter {ts n methods rest n'} :
    Methods ts n methods rest n' → rest.length < ts.length
  | .close _ => Nat.lt_succ_self _
  | .cons hm hmethods => Nat.lt_trans hmethods.shorter hm.shorter

theorem Function.shorter {ts n r rest n'} : Function ts n r rest n' → rest.length < ts.length
  | .mk _ _ hparameters _ _ _ hbody => by
      have := hparameters.shorter
      have := hbody.shorter
      simp only [List.length_cons] at *
      omega
end

end ScriptLang.Grammar.Phrase
