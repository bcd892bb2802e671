/-
ScriptLang.Proofs.Tree.Equality — whether two trees are the same is decidable.

A call holds a list of expressions, a block a list of statements and a class a
list of routines. So the comparison goes through trees and lists of trees side
by side, and the equality of trees is no derived instance. What is read from a
given source can be decided with it.
-/
import ScriptLang.Grammar

namespace ScriptLang

/-! ## 1. Expressions -/

mutual
/-- Whether two expressions are the same, identities and tokens included. -/
def Expr.same : Expr → Expr → Bool
  | .literal id value, .literal id' value' => id = id' && value = value'
  | .group id inner, .group id' inner' => id = id' && inner.same inner'
  | .unary id operator operand, .unary id' operator' operand' =>
    id = id' && operator = operator' && operand.same operand'
  | .binary id left operator right, .binary id' left' operator' right' =>
    id = id' && left.same left' && operator = operator' && right.same right'
  | .logical id left operator right, .logical id' left' operator' right' =>
    id = id' && left.same left' && operator = operator' && right.same right'
  | .read id name, .read id' name' => id = id' && name = name'
  | .assign id name value, .assign id' name' value' => id = id' && name = name' && value.same value'
  | .call id callee paren arguments, .call id' callee' paren' arguments' =>
    id = id' && callee.same callee' && paren = paren' && Expr.sameAll arguments arguments'
  | .property id object name, .property id' object' name' =>
    id = id' && object.same object' && name = name'
  | .setProperty id object name value, .setProperty id' object' name' value' =>
    id = id' && object.same object' && name = name' && value.same value'
  | .self id keyword, .self id' keyword' => id = id' && keyword = keyword'
  | _, _ => false

/-- Whether two lists of expressions are the same. -/
def Expr.sameAll : List Expr → List Expr → Bool
  | [], [] => true
  | e :: es, e' :: es' => e.same e' && Expr.sameAll es es'
  | _, _ => false
end

mutual
theorem Expr.same_iff : ∀ e e' : Expr, e.same e' = true ↔ e = e'
  | .literal .., e' => by cases e' <;> simp [Expr.same]
  | .group _ inner, e' => by cases e' <;> simp [Expr.same, Expr.same_iff inner]
  | .unary _ _ operand, e' => by cases e' <;> simp [Expr.same, Expr.same_iff operand, and_assoc]
  | .binary _ left _ right, e' => by
    cases e' <;> simp [Expr.same, Expr.same_iff left, Expr.same_iff right, and_assoc]
  | .logical _ left _ right, e' => by
    cases e' <;> simp [Expr.same, Expr.same_iff left, Expr.same_iff right, and_assoc]
  | .read .., e' => by cases e' <;> simp [Expr.same]
  | .assign _ _ value, e' => by cases e' <;> simp [Expr.same, Expr.same_iff value, and_assoc]
  | .call _ callee _ arguments, e' => by
    cases e' <;> simp [Expr.same, Expr.same_iff callee, Expr.sameAll_iff arguments, and_assoc]
  | .property _ object _, e' => by cases e' <;> simp [Expr.same, Expr.same_iff object, and_assoc]
  | .setProperty _ object _ value, e' => by
    cases e' <;> simp [Expr.same, Expr.same_iff object, Expr.same_iff value, and_assoc]
  | .self .., e' => by cases e' <;> simp [Expr.same]

theorem Expr.sameAll_iff : ∀ es es' : List Expr, Expr.sameAll es es' = true ↔ es = es'
  | [], es' => by cases es' <;> simp [Expr.sameAll]
  | e :: es, es' => by cases es' <;> simp [Expr.sameAll, Expr.same_iff e, Expr.sameAll_iff es]
end

instance : DecidableEq Expr := fun e e' => decidable_of_iff _ (e.same_iff e')

/-! ## 2. Statements -/

mutual
/-- Whether two statements are the same. -/
def Stmt.same : Stmt → Stmt → Bool
  | .expression value, .expression value' => value = value'
  | .print value, .print value' => value = value'
  | .var name initializer, .var name' initializer' => name = name' && initializer = initializer'
  | .block body, .block body' => Stmt.sameAll body body'
  | .ifThen condition thenBranch, .ifThen condition' thenBranch' =>
    condition = condition' && thenBranch.same thenBranch'
  | .ifElse condition thenBranch elseBranch, .ifElse condition' thenBranch' elseBranch' =>
    condition = condition' && thenBranch.same thenBranch' && elseBranch.same elseBranch'
  | .loop condition body, .loop condition' body' => condition = condition' && body.same body'
  | .function routine, .function routine' => routine.same routine'
  | .ret keyword value, .ret keyword' value' => keyword = keyword' && value = value'
  | .classDecl name methods, .classDecl name' methods' =>
    name = name' && Routine.sameAll methods methods'
  | _, _ => false

/-- Whether two lists of statements are the same. -/
def Stmt.sameAll : List Stmt → List Stmt → Bool
  | [], [] => true
  | s :: body, s' :: body' => s.same s' && Stmt.sameAll body body'
  | _, _ => false

/-- Whether two routines are the same. -/
def Routine.same : Routine → Routine → Bool
  | ⟨name, parameters, body⟩, ⟨name', parameters', body'⟩ =>
    name = name' && parameters = parameters' && Stmt.sameAll body body'

/-- Whether two lists of routines are the same. -/
def Routine.sameAll : List Routine → List Routine → Bool
  | [], [] => true
  | r :: rs, r' :: rs' => r.same r' && Routine.sameAll rs rs'
  | _, _ => false
end

mutual
theorem Stmt.same_iff : ∀ s s' : Stmt, s.same s' = true ↔ s = s'
  | .expression _, s' => by cases s' <;> simp [Stmt.same]
  | .print _, s' => by cases s' <;> simp [Stmt.same]
  | .var .., s' => by cases s' <;> simp [Stmt.same]
  | .block body, s' => by cases s' <;> simp [Stmt.same, Stmt.sameAll_iff body]
  | .ifThen _ thenBranch, s' => by cases s' <;> simp [Stmt.same, Stmt.same_iff thenBranch]
  | .ifElse _ thenBranch elseBranch, s' => by
    cases s' <;> simp [Stmt.same, Stmt.same_iff thenBranch, Stmt.same_iff elseBranch, and_assoc]
  | .loop _ body, s' => by cases s' <;> simp [Stmt.same, Stmt.same_iff body]
  | .function routine, s' => by cases s' <;> simp [Stmt.same, Routine.same_iff routine]
  | .ret .., s' => by cases s' <;> simp [Stmt.same]
  | .classDecl _ methods, s' => by cases s' <;> simp [Stmt.same, Routine.sameAll_iff methods]

theorem Stmt.sameAll_iff : ∀ body body' : List Stmt, Stmt.sameAll body body' = true ↔ body = body'
  | [], body' => by cases body' <;> simp [Stmt.sameAll]
  | s :: body, body' => by cases body' <;> simp [Stmt.sameAll, Stmt.same_iff s, Stmt.sameAll_iff body]

theorem Routine.same_iff : ∀ r r' : Routine, r.same r' = true ↔ r = r'
  | ⟨_, _, body⟩, ⟨_, _, _⟩ => by simp [Routine.same, Stmt.sameAll_iff body, and_assoc]

theorem Routine.sameAll_iff : ∀ rs rs' : List Routine, Routine.sameAll rs rs' = true ↔ rs = rs'
  | [], rs' => by cases rs' <;> simp [Routine.sameAll]
  | r :: rs, rs' => by cases rs' <;> simp [Routine.sameAll, Routine.same_iff r, Routine.sameAll_iff rs]
end

instance : DecidableEq Stmt := fun s s' => decidable_of_iff _ (s.same_iff s')

deriving instance DecidableEq for Parsed

end ScriptLang
