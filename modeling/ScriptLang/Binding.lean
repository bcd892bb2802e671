/-
ScriptLang.Binding — which variable a name means.

Before a script runs, one walk over its statements decides for every name
whether it means a local variable, and in which of the enclosing scopes that
variable lives. A scope is opened by a block, by a function (its parameters
and the declarations at the top of its body share one scope) and by a class
(a scope that holds only `this`). The distance to a variable is the number of
scopes in between, and it is recorded in the `HopTable`.

The same walk finds the static faults: a name declared twice in a local scope,
a variable read in its own initializer, a `return` outside every function or
with a value in an initializer, and `this` outside every class. A fault does
not stop the walk.

At the top level no scope is open. Top-level names are global, they may be
declared again, and only the one rule about initializers concerns them: the
names whose initializers are being walked are remembered.
-/
import ScriptLang.Binding.HopTable
import ScriptLang.Fault
import ScriptLang.NameMap

namespace ScriptLang.Binding

/-! ## 1. What the walk knows -/

/-- The names declared in a scope, with whether each may be read already. -/
abbrev Scope := NameMap Bool

/-- The innermost enclosing routine. -/
inductive Enclosing where
  | script
  | function
  | method
  | initializer
  deriving DecidableEq, Repr

/-- What surrounds a statement or expression. -/
structure Context where
  routine : Enclosing
  insideClass : Bool
  deriving DecidableEq, Repr

/-- What surrounds a script. -/
def Context.top : Context := ⟨.script, false⟩

/-- What the walk has found out so far. -/
structure State where
  /-- The open scopes, innermost first. -/
  scopes : List Scope
  /-- Top-level variables whose initializers are being walked. -/
  initializing : List String
  hops : HopTable
  /-- The faults found so far, in order. -/
  faults : List Fault

/-! ## 2. Scopes, declarations and uses -/

namespace State

/-- Opens a scope that holds some names already. -/
def enter (s : State) (scope : Scope) : State :=
  { s with scopes := scope :: s.scopes }

/-- Closes the innermost scope. -/
def leave (s : State) : State :=
  { s with scopes := s.scopes.tail }

/-- Records a fault. -/
def complain (s : State) (token : Token) (cause : BindingCause) : State :=
  { s with faults := s.faults ++ [.binding token.site cause] }

/-- Declares a name: it hides outer variables, but cannot be read yet. -/
def declare (s : State) (name : Token) : State :=
  match s.scopes with
  | [] => { s with initializing := name.lexeme :: s.initializing }
  | scope :: outer =>
    if scope.contains name.lexeme then s.complain name .redeclared
    else { s with scopes := scope.insert name.lexeme false :: outer }

/-- Makes a declared name readable. -/
def define (s : State) (name : Token) : State :=
  match s.scopes with
  | [] => { s with initializing := s.initializing.filter (· != name.lexeme) }
  | scope :: outer => { s with scopes := scope.insert name.lexeme true :: outer }

/-- Declares a name that can be read at once. -/
def introduce (s : State) (name : Token) : State :=
  (s.declare name).define name

/-- Whether a name is being initialized: in the innermost scope, or at the top level if no
scope declares it. -/
def unready (s : State) (name : String) : Bool :=
  match s.scopes.head?.bind (·.get? name) with
  | some ready => !ready
  | none => !s.scopes.any (·.contains name) && s.initializing.contains name

/-- Records the distance to the innermost scope that declares a name, if one does. -/
def note (s : State) (id : Nat) (name : String) : State :=
  match s.scopes.findIdx? (·.contains name) with
  | some hops => { s with hops := s.hops.insert id hops }
  | none => s

end State

/-! ## 3. Expressions -/

mutual
/-- Walks an expression. -/
def expr (ctx : Context) : Expr → State → State
  | .literal _ _, s => s
  | .group _ inner, s => expr ctx inner s
  | .unary _ _ operand, s => expr ctx operand s
  | .binary _ left _ right, s => expr ctx right (expr ctx left s)
  | .logical _ left _ right, s => expr ctx right (expr ctx left s)
  | .read id name, s =>
    let s := if s.unready name.lexeme then s.complain name .ownInitializer else s
    s.note id name.lexeme
  | .assign id name value, s => (expr ctx value s).note id name.lexeme
  | .call _ callee _ arguments, s => exprs ctx arguments (expr ctx callee s)
  | .property _ object _, s => expr ctx object s
  | .setProperty _ object _ value, s => expr ctx object (expr ctx value s)
  | .self id keyword, s =>
    if ctx.insideClass then s.note id keyword.lexeme else s.complain keyword .strayThis

/-- Walks some expressions in order. -/
def exprs (ctx : Context) : List Expr → State → State
  | [], s => s
  | e :: rest, s => exprs ctx rest (expr ctx e s)
end

/-- Walks an expression that may be missing. -/
def exprOption (ctx : Context) (e : Option Expr) (s : State) : State :=
  match e with
  | some e => expr ctx e s
  | none => s

/-! ## 4. Statements -/

/-- The routine a method is. -/
def Enclosing.ofMethod (method : Routine) : Enclosing :=
  if method.isInitializer then .initializer else .method

mutual
/-- Walks a statement. -/
def stmt (ctx : Context) : Stmt → State → State
  | .expression value, s => expr ctx value s
  | .print value, s => expr ctx value s
  | .var name initializer, s => (exprOption ctx initializer (s.declare name)).define name
  | .block body, s => (stmts ctx body (s.enter .empty)).leave
  | .ifThen condition thenBranch, s => stmt ctx thenBranch (expr ctx condition s)
  | .ifElse condition thenBranch elseBranch, s =>
    stmt ctx elseBranch (stmt ctx thenBranch (expr ctx condition s))
  | .loop condition body, s => stmt ctx body (expr ctx condition s)
  | .function ⟨name, parameters, body⟩, s =>
    let s := (s.introduce name).enter .empty
    let s := parameters.foldl State.introduce s
    (stmts { ctx with routine := .function } body s).leave
  | .ret keyword value, s =>
    let s := if ctx.routine = .script then s.complain keyword .topLevelReturn else s
    let s := if value.isSome && ctx.routine = .initializer
      then s.complain keyword .initializerValue else s
    exprOption ctx value s
  | .classDecl name methods, s =>
    let s := (s.introduce name).enter (NameMap.empty.insert selfName true)
    (routines methods s).leave

/-- Walks some statements in order. -/
def stmts (ctx : Context) : List Stmt → State → State
  | [], s => s
  | statement :: rest, s => stmts ctx rest (stmt ctx statement s)

/-- Walks the methods of a class in order. -/
def routines : List Routine → State → State
  | [], s => s
  | method :: rest, s => routines rest (routine method s)

/-- Walks a method of a class. -/
def routine : Routine → State → State
  | ⟨name, parameters, body⟩, s =>
    let kind := Enclosing.ofMethod ⟨name, parameters, body⟩
    let s := parameters.foldl State.introduce (s.enter .empty)
    (stmts ⟨kind, true⟩ body s).leave
end

/-! ## 5. Scripts -/

/-- Walks the statements of a script, adding to the hop counts known before. -/
def resolve (statements : List Stmt) (hops : HopTable) : HopTable × List Fault :=
  let s := stmts .top statements ⟨[], [], hops, []⟩
  (s.hops, s.faults)

end ScriptLang.Binding
