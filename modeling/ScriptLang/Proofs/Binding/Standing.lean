/-
ScriptLang.Proofs.Binding.Standing — where the statements of a script stand.

Which variable a name means, and whether a `return` or a `this` is in order,
is a matter of place: of the functions and methods around it, and of what the
scopes around it have declared so far. `Surroundings` is all there is to know
about a place, and `Row script around rest` says that the statements `rest`
are the end of a row in the script and that the first of them has `around`
around it. A row is the script itself, a body, or a single branch.

Scopes are opened by blocks, by functions and methods (parameters and body
share one) and by classes (for `this`). Branches and loop bodies open none,
and outside every scope a declaration is global. Nothing here walks, counts or
keeps a table.
-/
import ScriptLang.Tree.Mention

namespace ScriptLang

/-! ## 1. Surroundings -/

/-- What can have a `return` of its own. -/
inductive Host where
  | function
  | method (name : String)
  deriving DecidableEq, Repr

/-- What surrounds a place in a script. -/
structure Surroundings where
  /-- The functions and methods around it, innermost first. -/
  hosts : List Host
  /-- The names that are declared before it, for each scope around it, innermost first. -/
  scopes : List (List String)
  deriving DecidableEq, Repr

namespace Surroundings

/-- Around a script there is nothing. -/
def outside : Surroundings := ⟨[], []⟩

/-- Further on in the innermost scope, after some declarations. -/
def declare (around : Surroundings) (names : List String) : Surroundings :=
  { around with scopes := around.scopes.modifyHead (· ++ names) }

/-- In a new scope that declares some names from its start. -/
def enter (around : Surroundings) (names : List String) : Surroundings :=
  { around with scopes := names :: around.scopes }

/-- In a function or method with these parameters. -/
def call (around : Surroundings) (host : Host) (parameters : List Token) : Surroundings :=
  ⟨host :: around.hosts, parameters.map Token.lexeme :: around.scopes⟩

/-- Among the methods of a class. -/
def inClass (around : Surroundings) (name : Token) : Surroundings :=
  (around.declare [name.lexeme]).enter [selfName]

/-- Some method is around. -/
def InMethod (around : Surroundings) : Prop :=
  ∃ name, Host.method name ∈ around.hosts

/-- Some scope around declares the name. -/
def Declares (around : Surroundings) (name : String) : Prop :=
  ∃ names ∈ around.scopes, name ∈ names

/-- The nearest scope that declares the name lies `distance` scopes further out than the innermost
one. -/
structure Nearest (around : Surroundings) (name : String) (distance : Nat) : Prop where
  declared : ∃ names, around.scopes[distance]? = some names ∧ name ∈ names
  hidden : ∀ k < distance, ∀ names, around.scopes[k]? = some names → name ∉ names

end Surroundings

/-! ## 2. Places in a script -/

/-- The names that a statement declares in the scope it stands in. -/
def Stmt.declares : Stmt → List String
  | .var name _ => [name.lexeme]
  | .function routine => [routine.name.lexeme]
  | .classDecl name _ => [name.lexeme]
  | .ifThen _ thenBranch => thenBranch.declares
  | .ifElse _ thenBranch elseBranch => thenBranch.declares ++ elseBranch.declares
  | .loop _ body => body.declares
  | .expression _ => []
  | .print _ => []
  | .block _ => []
  | .ret _ _ => []

/-- The names that some statements declare in the scope they stand in. -/
def Stmt.declaresAll (statements : List Stmt) : List String :=
  statements.flatMap Stmt.declares

/-- The statements `rest` are the end of a row in the script, and the first of them has `around`
around it. -/
inductive Row (script : List Stmt) : Surroundings → List Stmt → Prop where
  | script : Row script .outside script
  | rest {around s rest} : Row script around (s :: rest) →
      Row script (around.declare s.declares) rest
  | block {around body rest} : Row script around (.block body :: rest) →
      Row script (around.enter []) body
  | thenOnly {around condition thenBranch rest} :
      Row script around (.ifThen condition thenBranch :: rest) → Row script around [thenBranch]
  | thenBranch {around condition thenBranch elseBranch rest} :
      Row script around (.ifElse condition thenBranch elseBranch :: rest) →
      Row script around [thenBranch]
  | elseBranch {around condition thenBranch elseBranch rest} :
      Row script around (.ifElse condition thenBranch elseBranch :: rest) →
      Row script (around.declare thenBranch.declares) [elseBranch]
  | loop {around condition body rest} : Row script around (.loop condition body :: rest) →
      Row script around [body]
  | function {around routine rest} : Row script around (.function routine :: rest) →
      Row script ((around.declare [routine.name.lexeme]).call .function routine.parameters)
        routine.body
  | method {around name methods method rest} :
      Row script around (.classDecl name methods :: rest) → method ∈ methods →
      Row script ((around.inClass name).call (.method method.name.lexeme) method.parameters)
        method.body

/-- A statement of the script, and what is around it. -/
def Stands (script : List Stmt) (around : Surroundings) (s : Stmt) : Prop :=
  ∃ rest, Row script around (s :: rest)

/-- The mentions in the expressions of a statement itself, not in statements within it. -/
def Stmt.ownMentions : Stmt → List Mention
  | .expression value => value.mentions
  | .print value => value.mentions
  | .var _ initializer => Expr.mentionsOption initializer
  | .ifThen condition _ => condition.mentions
  | .ifElse condition _ _ => condition.mentions
  | .loop condition _ => condition.mentions
  | .ret _ value => Expr.mentionsOption value
  | .block _ => []
  | .function _ => []
  | .classDecl _ _ => []

/-- What is around the expressions of a statement: a variable is declared from its own
initializer on. -/
def Surroundings.within (around : Surroundings) : Stmt → Surroundings
  | .var name _ => around.declare [name.lexeme]
  | _ => around

/-- A mention in the script, and what is around it. -/
def Mentioned (script : List Stmt) (around : Surroundings) (m : Mention) : Prop :=
  ∃ outer s, Stands script outer s ∧ m ∈ s.ownMentions ∧ around = outer.within s

/-! ## 3. Small facts -/

namespace Surroundings

variable (around : Surroundings)

@[simp] theorem hosts_declare (names : List String) : (around.declare names).hosts = around.hosts :=
  rfl

@[simp] theorem scopes_declare (names : List String) :
    (around.declare names).scopes = around.scopes.modifyHead (· ++ names) := rfl

@[simp] theorem declare_nil : around.declare [] = around := by
  cases around with
  | mk hosts scopes => cases scopes <;> simp [declare]

theorem declare_append (names names' : List String) :
    around.declare (names ++ names') = (around.declare names).declare names' := by
  cases around with
  | mk hosts scopes => cases scopes <;> simp [declare]

/-- Initializers are in no other functions and methods than their statements. -/
theorem inMethod_within (s : Stmt) : (around.within s).InMethod ↔ around.InMethod := by
  cases s <;> rfl

end Surroundings

@[simp] theorem Stmt.declaresAll_nil : Stmt.declaresAll [] = [] := rfl

@[simp] theorem Stmt.declaresAll_cons (s : Stmt) (rest : List Stmt) :
    Stmt.declaresAll (s :: rest) = s.declares ++ Stmt.declaresAll rest := rfl

section Mentions

variable {script : List Stmt} {around : Surroundings}

mutual
/-- Every mention of a statement that stands in the script stands there. -/
theorem mentioned_of_stmt : ∀ (s : Stmt) {rest : List Stmt} {around : Surroundings},
    Row script around (s :: rest) → ∀ m ∈ s.mentions, ∃ around', Mentioned script around' m
  | .expression _, rest, _, hrow, _, hm => ⟨_, _, _, ⟨rest, hrow⟩, hm, rfl⟩
  | .print _, rest, _, hrow, _, hm => ⟨_, _, _, ⟨rest, hrow⟩, hm, rfl⟩
  | .var _ _, rest, _, hrow, _, hm => ⟨_, _, _, ⟨rest, hrow⟩, hm, rfl⟩
  | .ret _ _, rest, _, hrow, _, hm => ⟨_, _, _, ⟨rest, hrow⟩, hm, rfl⟩
  | .block body, _, _, hrow, m, hm => mentioned_of_row body hrow.block m hm
  | .ifThen _ thenBranch, rest, _, hrow, m, hm => by
      rcases List.mem_append.mp hm with hm | hm
      · exact ⟨_, _, _, ⟨rest, hrow⟩, hm, rfl⟩
      · exact mentioned_of_stmt thenBranch hrow.thenOnly m hm
  | .ifElse _ thenBranch elseBranch, rest, _, hrow, m, hm => by
      rcases List.mem_append.mp hm with hm | hm
      · rcases List.mem_append.mp hm with hm | hm
        · exact ⟨_, _, _, ⟨rest, hrow⟩, hm, rfl⟩
        · exact mentioned_of_stmt thenBranch hrow.thenBranch m hm
      · exact mentioned_of_stmt elseBranch hrow.elseBranch m hm
  | .loop _ body, rest, _, hrow, m, hm => by
      rcases List.mem_append.mp hm with hm | hm
      · exact ⟨_, _, _, ⟨rest, hrow⟩, hm, rfl⟩
      · exact mentioned_of_stmt body hrow.loop m hm
  | .function ⟨_, _, body⟩, _, _, hrow, m, hm => mentioned_of_row body hrow.function m hm
  | .classDecl _ methods, _, _, hrow, m, hm =>
      mentioned_of_methods methods (fun _ => hrow.method) m hm

theorem mentioned_of_row : ∀ (rest : List Stmt) {around : Surroundings},
    Row script around rest → ∀ m ∈ Stmt.mentionsAll rest, ∃ around', Mentioned script around' m
  | [], _, _, m, hm => absurd hm (by simp [Stmt.mentionsAll])
  | s :: rest, _, hrow, m, hm => by
      rcases List.mem_append.mp hm with hm | hm
      · exact mentioned_of_stmt s hrow m hm
      · exact mentioned_of_row rest hrow.rest m hm

theorem mentioned_of_methods : ∀ (methods : List Routine) {around : Surroundings},
    (∀ method ∈ methods, Row script
      (around.call (.method method.name.lexeme) method.parameters) method.body) →
    ∀ m ∈ Routine.mentionsAll methods, ∃ around', Mentioned script around' m
  | [], _, _, m, hm => absurd hm (by simp [Routine.mentionsAll])
  | ⟨name, parameters, body⟩ :: rest, _, hrows, m, hm => by
      rcases List.mem_append.mp hm with hm | hm
      · exact mentioned_of_row body (hrows _ List.mem_cons_self) m hm
      · exact mentioned_of_methods rest (fun r hr => hrows r (List.mem_cons_of_mem _ hr)) m hm
end

end Mentions

end ScriptLang
