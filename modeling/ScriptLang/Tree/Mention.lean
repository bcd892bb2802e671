/-
ScriptLang.Tree.Mention — the names that trees mention, in reading order.

A mention is an expression that reads a variable, assigns to one, or is the
keyword `this`: the expressions that can have a hop count. They are listed as
they are read. An assignment comes before the value it assigns, the object of
a property before the assigned value, a condition before its branches, and the
body of a function or method where it is declared.
-/
import ScriptLang.Tree

namespace ScriptLang

/-- What a mention does with its name. -/
inductive MentionRole where
  | read
  | assign
  | self
  deriving DecidableEq, Repr

/-- A place where a name is mentioned. -/
structure Mention where
  role : MentionRole
  id : Nat
  token : Token
  deriving DecidableEq, Repr

mutual
/-- The names an expression mentions. -/
def Expr.mentions : Expr → List Mention
  | .literal _ _ => []
  | .group _ inner => inner.mentions
  | .unary _ _ operand => operand.mentions
  | .binary _ left _ right => left.mentions ++ right.mentions
  | .logical _ left _ right => left.mentions ++ right.mentions
  | .read id name => [⟨.read, id, name⟩]
  | .assign id name value => ⟨.assign, id, name⟩ :: value.mentions
  | .call _ callee _ arguments => callee.mentions ++ Expr.mentionsAll arguments
  | .property _ object _ => object.mentions
  | .setProperty _ object _ value => object.mentions ++ value.mentions
  | .self id keyword => [⟨.self, id, keyword⟩]

/-- The names some expressions mention. -/
def Expr.mentionsAll : List Expr → List Mention
  | [] => []
  | e :: rest => e.mentions ++ Expr.mentionsAll rest
end

/-- The names mentioned by an expression that may be missing. -/
def Expr.mentionsOption : Option Expr → List Mention
  | some e => e.mentions
  | none => []

mutual
/-- The names a statement mentions. -/
def Stmt.mentions : Stmt → List Mention
  | .expression value => value.mentions
  | .print value => value.mentions
  | .var _ initializer => Expr.mentionsOption initializer
  | .block body => Stmt.mentionsAll body
  | .ifThen condition thenBranch => condition.mentions ++ thenBranch.mentions
  | .ifElse condition thenBranch elseBranch =>
    condition.mentions ++ thenBranch.mentions ++ elseBranch.mentions
  | .loop condition body => condition.mentions ++ body.mentions
  | .function routine => routine.mentions
  | .ret _ value => Expr.mentionsOption value
  | .classDecl _ methods => Routine.mentionsAll methods

/-- The names some statements mention. -/
def Stmt.mentionsAll : List Stmt → List Mention
  | [] => []
  | s :: rest => s.mentions ++ Stmt.mentionsAll rest

/-- The names a routine mentions. -/
def Routine.mentions : Routine → List Mention
  | ⟨_, _, body⟩ => Stmt.mentionsAll body

/-- The names some methods mention. -/
def Routine.mentionsAll : List Routine → List Mention
  | [] => []
  | r :: rest => r.mentions ++ Routine.mentionsAll rest
end

end ScriptLang
