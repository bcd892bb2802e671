/-
ScriptLang.Fault — everything that can go wrong with a script.

A fault is a cause together with the place it points at. There are five
kinds, one for each stage of a script's life: reading its words, reading its
sentences, binding its names, running it, and writing what it prints. The
first three are static: they are found before anything runs, and they keep
the script from running.

Causes are data, and their wording is in one `message` function for each kind
of cause. Every kind has a cause `described` for faults whose text is given
by the program around the interpreter; host functions, which can fail with
any text, are its main use.
-/
import ScriptLang.Token

namespace ScriptLang

/-! ## 1. Places -/

/-- A place in a source text: a line and the word there, or no word at the end of the text. -/
structure Site where
  line : Nat
  lexeme : Option String
  deriving DecidableEq, Repr

/-- The place of a token. -/
def Token.site (t : Token) : Site :=
  ⟨t.line, if t.kind = .endOfInput then none else some t.lexeme⟩

/-- How a message refers to a place on its line. -/
def Site.text (s : Site) : String :=
  match s.lexeme with
  | some lexeme => " at '" ++ lexeme ++ "'"
  | none => " at end"

/-! ## 2. Causes found before a script runs -/

/-- Bytes that form no word. -/
inductive LexicalCause where
  | unterminatedString
  | unexpectedCharacter (text : String)
  | described (message : String)
  deriving DecidableEq, Repr

/-- The wording of a lexical cause. -/
def LexicalCause.message : LexicalCause → String
  | .unterminatedString => "Unterminated string."
  | .unexpectedCharacter text => "Unexpected character: " ++ text
  | .described message => message

/-- The two spellings of a routine in messages. -/
inductive RoutineRole where
  | function
  | method
  deriving DecidableEq, Repr

/-- The word for a routine. -/
def RoutineRole.name : RoutineRole → String
  | .function => "function"
  | .method => "method"

/-- A word that the grammar requires. -/
inductive Wanted where
  | expression
  | className
  | classBodyStart
  | classBodyEnd
  | routineName (role : RoutineRole)
  | parametersStart (role : RoutineRole)
  | parameterName
  | parametersEnd
  | routineBodyStart (role : RoutineRole)
  | variableName
  | variableEnd
  | forStart
  | forConditionEnd
  | forClausesEnd
  | ifStart
  | ifConditionEnd
  | printEnd
  | returnEnd
  | whileStart
  | whileConditionEnd
  | expressionEnd
  | blockEnd
  | propertyName
  | argumentsEnd
  | groupEnd
  deriving DecidableEq, Repr

/-- What is wanted, and where. -/
def Wanted.text : Wanted → String
  | .expression => "expression"
  | .className => "class name"
  | .classBodyStart => "'\x7b' before class body"
  | .classBodyEnd => "'\x7d' after class body"
  | .routineName role => role.name ++ " name"
  | .parametersStart role => "'(' after " ++ role.name ++ " name"
  | .parameterName => "parameter name"
  | .parametersEnd => "')' after parameters"
  | .routineBodyStart role => "'\x7b' before " ++ role.name ++ " body"
  | .variableName => "variable name"
  | .variableEnd => "';' after variable declaration"
  | .forStart => "'(' after 'for'"
  | .forConditionEnd => "';' after loop condition"
  | .forClausesEnd => "')' after for clauses"
  | .ifStart => "'(' after 'if'"
  | .ifConditionEnd => "')' after if condition"
  | .printEnd => "';' after value"
  | .returnEnd => "';' after return value"
  | .whileStart => "'(' after 'while'"
  | .whileConditionEnd => "')' after condition"
  | .expressionEnd => "';' after expression"
  | .blockEnd => "'\x7d' after block"
  | .propertyName => "property name after '.'"
  | .argumentsEnd => "')' after arguments"
  | .groupEnd => "')' after expression"

/-- The lists whose length is bounded. -/
inductive BoundedList where
  | parameters
  | arguments
  deriving DecidableEq, Repr

/-- The word for the items of a list. -/
def BoundedList.name : BoundedList → String
  | .parameters => "parameters"
  | .arguments => "arguments"

/-- The most parameters a routine and the most arguments a call may have. -/
def maxArity : Nat := 255

/-- Words that form no sentence. -/
inductive GrammarCause where
  | expected (wanted : Wanted)
  | tooMany (list : BoundedList)
  | assignmentTarget
  /-- Sentences nest more deeply than the reader was prepared for. -/
  | tooDeep
  | described (message : String)
  deriving DecidableEq, Repr

/-- The wording of a grammatical cause. -/
def GrammarCause.message : GrammarCause → String
  | .expected wanted => "Expect " ++ wanted.text ++ "."
  | .tooMany list => "Can't have more than " ++ toString maxArity ++ " " ++ list.name ++ "."
  | .assignmentTarget => "Invalid assignment target."
  | .tooDeep => "Too many nested sentences."
  | .described message => message

/-- Names and keywords in places where they mean nothing. -/
inductive BindingCause where
  | redeclared
  | ownInitializer
  | topLevelReturn
  | initializerValue
  | strayThis
  | described (message : String)
  deriving DecidableEq, Repr

/-- The wording of a cause about names. -/
def BindingCause.message : BindingCause → String
  | .redeclared => "Already a variable with this name in this scope."
  | .ownInitializer => "Can't read local variable in its own initializer."
  | .topLevelReturn => "Can't return from top-level code."
  | .initializerValue => "Can't return a value from an initializer."
  | .strayThis => "Can't use 'this' outside of a class."
  | .described message => message

/-! ## 3. Causes found while a script runs -/

/-- The classes of runtime faults. -/
inductive RuntimeKind where
  | type
  | undefinedVariable
  | undefinedProperty
  | notCallable
  | arity
  | notAnInstance
  | native
  | stackOverflow
  deriving DecidableEq, Repr

/-- The name of a class of runtime faults. -/
def RuntimeKind.name : RuntimeKind → String
  | .type => "type error"
  | .undefinedVariable => "undefined variable"
  | .undefinedProperty => "undefined property"
  | .notCallable => "not callable"
  | .arity => "arity mismatch"
  | .notAnInstance => "not an instance"
  | .native => "native failure"
  | .stackOverflow => "stack overflow"

/-- Operations that have no result. -/
inductive RuntimeCause where
  | operandNotNumber
  | operandsNotNumbers
  | operandsNotAddable
  | invalidUnary (lexeme : String)
  | invalidBinary (lexeme : String)
  | undefinedVariable (name : String)
  | undefinedProperty (name : String)
  | notCallable
  | arity (expected given : Nat)
  | noProperties
  | noFields
  | stackOverflow
  | described (kind : RuntimeKind) (message : String)
  deriving DecidableEq, Repr

/-- The class of a runtime cause. -/
def RuntimeCause.kind : RuntimeCause → RuntimeKind
  | .operandNotNumber => .type
  | .operandsNotNumbers => .type
  | .operandsNotAddable => .type
  | .invalidUnary _ => .type
  | .invalidBinary _ => .type
  | .undefinedVariable _ => .undefinedVariable
  | .undefinedProperty _ => .undefinedProperty
  | .notCallable => .notCallable
  | .arity _ _ => .arity
  | .noProperties => .notAnInstance
  | .noFields => .notAnInstance
  | .stackOverflow => .stackOverflow
  | .described kind _ => kind

/-- The wording of a runtime cause. -/
def RuntimeCause.message : RuntimeCause → String
  | .operandNotNumber => "Operand must be a number."
  | .operandsNotNumbers => "Operands must be numbers."
  | .operandsNotAddable => "Operands must be two numbers or two strings."
  | .invalidUnary lexeme => "Invalid unary operator '" ++ lexeme ++ "'."
  | .invalidBinary lexeme => "Invalid binary operator '" ++ lexeme ++ "'."
  | .undefinedVariable name => "Undefined variable '" ++ name ++ "'."
  | .undefinedProperty name => "Undefined property '" ++ name ++ "'."
  | .notCallable => "Can only call functions and classes."
  | .arity expected given =>
    "Expected " ++ toString expected ++ " arguments but got " ++ toString given ++ "."
  | .noProperties => "Only instances have properties."
  | .noFields => "Only instances have fields."
  | .stackOverflow => "Stack overflow."
  | .described _ message => message

/-! ## 4. Faults -/

/-- A cause and the place it points at. -/
inductive Fault where
  | lexical (line : Nat) (cause : LexicalCause)
  | grammar (site : Site) (cause : GrammarCause)
  | binding (site : Site) (cause : BindingCause)
  | runtime (line : Nat) (cause : RuntimeCause)
  /-- The output refused what a script printed. It points at no place in the script. -/
  | output (message : String)
  deriving DecidableEq, Repr

/-- The full text of a fault. -/
def Fault.message : Fault → String
  | .lexical line cause => "[line " ++ toString line ++ "] Error: " ++ cause.message
  | .grammar site cause =>
    "[line " ++ toString site.line ++ "] Error" ++ site.text ++ ": " ++ cause.message
  | .binding site cause =>
    "[line " ++ toString site.line ++ "] Error" ++ site.text ++ ": " ++ cause.message
  | .runtime line cause => cause.message ++ "\n[line " ++ toString line ++ "]"
  | .output message => message

/-- The line a fault points at. -/
def Fault.line? : Fault → Option Nat
  | .lexical line _ => some line
  | .grammar site _ => some site.line
  | .binding site _ => some site.line
  | .runtime line _ => some line
  | .output _ => none

/-- Static faults are the ones that keep a script from running. -/
def Fault.isStatic : Fault → Bool
  | .lexical .. => true
  | .grammar .. => true
  | .binding .. => true
  | .runtime .. => false
  | .output _ => false

end ScriptLang
