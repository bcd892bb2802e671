/-
ScriptLang.Tree — sentences of the language as trees.

Every expression carries an identity, a number that no other expression of
the same session has. What is found out about an expression before it runs,
namely how many scopes away the variable it mentions lives, is kept in a table
under that number, so two equal expressions at different places never share
an entry.

Operators and names stay tokens: a fault at run time points at the line of the
token it concerns. `for` has no tree of its own, since it means a `while` loop
inside blocks.
-/
import ScriptLang.Token

namespace ScriptLang

/-! ## 1. Expressions -/

/-- A value written in the source. -/
inductive Constant where
  | number (value : Float)
  | text (value : String)
  | bool (value : Bool)
  | nil
  deriving DecidableEq, Repr

/-- The constant of a literal token; a token without a value gives `nil`. -/
def Constant.ofLiteral : Option Literal → Constant
  | some (.number x) => .number x
  | some (.text s) => .text s
  | none => .nil

/-- Expressions. -/
inductive Expr where
  | literal (id : Nat) (value : Constant)
  | group (id : Nat) (inner : Expr)
  | unary (id : Nat) (operator : Token) (operand : Expr)
  | binary (id : Nat) (left : Expr) (operator : Token) (right : Expr)
  /-- `and` and `or`, which may leave their right side alone. -/
  | logical (id : Nat) (left : Expr) (operator : Token) (right : Expr)
  | read (id : Nat) (name : Token)
  | assign (id : Nat) (name : Token) (value : Expr)
  /-- A call, with the closing parenthesis that its faults point at. -/
  | call (id : Nat) (callee : Expr) (paren : Token) (arguments : List Expr)
  | property (id : Nat) (object : Expr) (name : Token)
  | setProperty (id : Nat) (object : Expr) (name : Token) (value : Expr)
  /-- The keyword `this`. -/
  | self (id : Nat) (keyword : Token)
  deriving Repr

/-- The identity of an expression. -/
def Expr.id : Expr → Nat
  | .literal id .. => id
  | .group id .. => id
  | .unary id .. => id
  | .binary id .. => id
  | .logical id .. => id
  | .read id .. => id
  | .assign id .. => id
  | .call id .. => id
  | .property id .. => id
  | .setProperty id .. => id
  | .self id .. => id

/-! ## 2. Statements -/

mutual
/-- Statements and declarations. -/
inductive Stmt where
  | expression (value : Expr)
  | print (value : Expr)
  | var (name : Token) (initializer : Option Expr)
  | block (body : List Stmt)
  | ifThen (condition : Expr) (thenBranch : Stmt)
  | ifElse (condition : Expr) (thenBranch elseBranch : Stmt)
  | loop (condition : Expr) (body : Stmt)
  | function (routine : Routine)
  | ret (keyword : Token) (value : Option Expr)
  | classDecl (name : Token) (methods : List Routine)

/-- The declaration of a function or of a method. -/
structure Routine where
  name : Token
  parameters : List Token
  body : List Stmt
end

/-- The name of the method that sets up a new instance. -/
def initializerName : String := "init"

/-- The name that the instance of a running method is bound to. -/
def selfName : String := "this"

/-- Whether a method sets up new instances. -/
def Routine.isInitializer (routine : Routine) : Bool :=
  routine.name.lexeme == initializerName

end ScriptLang
