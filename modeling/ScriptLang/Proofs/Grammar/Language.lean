/-
ScriptLang.Proofs.Grammar.Language — the sentences of the language.

`Derives s ks` says that the kinds `ks` form a phrase of the sort `s`. It is
the grammar of the language as a set of rules, with one constructor for each
alternative of a rule, and it knows nothing about how sentences are read:

    program        → declaration*
    declaration    → classDecl | funDecl | varDecl | statement
    classDecl      → "class" IDENT "{" function* "}"
    funDecl        → "fun" function
    function       → IDENT "(" parameters? ")" block
    varDecl        → "var" IDENT ( "=" expression )? ";"
    statement      → exprStmt | forStmt | printStmt | whileStmt
                   | ifStmt | block | returnStmt
    exprStmt       → expression ";"
    printStmt      → "print" expression ";"
    returnStmt     → "return" expression? ";"
    forStmt        → "for" "(" ( varDecl | exprStmt | ";" )
                     expression? ";" expression? ")" statement
    whileStmt      → "while" "(" expression ")" statement
    ifStmt         → "if" "(" expression ")" statement ( "else" statement )?
    block          → "{" declaration* "}"
    parameters     → IDENT ( "," IDENT )*
    expression     → assignment
    assignment     → ( call "." )? IDENT "=" assignment | logicOr
    logicOr        → logicAnd ( "or" logicAnd )*
    logicAnd       → equality ( "and" equality )*
    equality       → comparison ( ( "!=" | "==" ) comparison )*
    comparison     → term ( ( ">" | ">=" | "<" | "<=" ) term )*
    term           → factor ( ( "-" | "+" ) factor )*
    factor         → unary ( ( "/" | "*" ) unary )*
    unary          → ( "!" | "-" ) unary | call
    call           → primary ( "(" arguments? ")" | "." IDENT )*
    arguments      → expression ( "," expression )*
    primary        → NUMBER | STRING | "true" | "false" | "nil" | "this"
                   | IDENT | "(" expression ")"

Two conditions stand beside these rules.

* A list of parameters or of arguments has at most `maxArity` entries. The
  sorts `parameters` and `arguments` carry the number of entries.
* An `else` belongs to the nearest `if`. A statement that ends with an `if`
  without `else` is `dangling`; it cannot stand between another `if` and its
  `else`, because the `else` would be taken by the inner `if`.
-/
import ScriptLang.Fault

namespace ScriptLang.Grammar

/-! ## 1. Sorts of phrases -/

/-- The sorts of phrases. -/
inductive Symbol where
  | program | declaration | classDecl | funDecl | function | varDecl
  /-- `dangling` if the statement ends with an `if` that has no `else`. -/
  | statement (dangling : Bool)
  | exprStmt | printStmt | returnStmt
  | forStmt (dangling : Bool)
  | whileStmt (dangling : Bool)
  | ifStmt (dangling : Bool)
  | block
  | parameters (count : Nat)
  | expression | assignment
  | logicOr | logicAnd | equality | comparison | term | factor
  | unary | call
  | arguments (count : Nat)
  | primary
  /-- Any number of phrases of a sort. -/
  | many (item : Symbol)
  /-- A phrase of a sort, or nothing. -/
  | optional (item : Symbol)
  /-- Any number of operators, each with an operand after it. -/
  | joined (operators : List Kind) (operand : Symbol)
  /-- The first clause of a `for` statement. -/
  | forFirst
  /-- The value of a variable declaration, or nothing. -/
  | initializer
  /-- Any number of argument lists and property names after a callee. -/
  | suffixes

/-! ## 2. Rules -/

/-- `Derives s ks` says that the kinds `ks` form a phrase of the sort `s`. -/
inductive Derives : Symbol → List Kind → Prop where
  -- repetition and options
  | manyNil {s} : Derives (.many s) []
  | manyCons {s t u} : Derives s t → Derives (.many s) u → Derives (.many s) (t ++ u)
  | optionalNone {s} : Derives (.optional s) []
  | optionalSome {s t} : Derives s t → Derives (.optional s) t
  | joinedNil {ops s} : Derives (.joined ops s) []
  | joinedCons {ops s op t u} : op ∈ ops → Derives s t → Derives (.joined ops s) u →
      Derives (.joined ops s) (op :: t ++ u)
  -- declarations
  | program {t} : Derives (.many .declaration) t → Derives .program t
  | declarationClass {t} : Derives .classDecl t → Derives .declaration t
  | declarationFun {t} : Derives .funDecl t → Derives .declaration t
  | declarationVar {t} : Derives .varDecl t → Derives .declaration t
  | declarationStatement {d t} : Derives (.statement d) t → Derives .declaration t
  | classDecl {t} : Derives (.many .function) t →
      Derives .classDecl (.classWord :: .identifier :: .leftBrace :: t ++ [.rightBrace])
  | funDecl {t} : Derives .function t → Derives .funDecl (.funWord :: t)
  | function {n t u} : n ≤ maxArity → Derives (.optional (.parameters n)) t → Derives .block u →
      Derives .function (.identifier :: .leftParen :: t ++ .rightParen :: u)
  | parametersOne : Derives (.parameters 1) [.identifier]
  | parametersMore {n t} : Derives (.parameters n) t →
      Derives (.parameters (n + 1)) (.identifier :: .comma :: t)
  | varDecl {t} : Derives .initializer t →
      Derives .varDecl (.varWord :: .identifier :: t ++ [.semicolon])
  | initializerNone : Derives .initializer []
  | initializerSome {t} : Derives .expression t → Derives .initializer (.equal :: t)
  -- statements
  | statementExpr {t} : Derives .exprStmt t → Derives (.statement false) t
  | statementFor {d t} : Derives (.forStmt d) t → Derives (.statement d) t
  | statementPrint {t} : Derives .printStmt t → Derives (.statement false) t
  | statementWhile {d t} : Derives (.whileStmt d) t → Derives (.statement d) t
  | statementIf {d t} : Derives (.ifStmt d) t → Derives (.statement d) t
  | statementBlock {t} : Derives .block t → Derives (.statement false) t
  | statementReturn {t} : Derives .returnStmt t → Derives (.statement false) t
  | exprStmt {t} : Derives .expression t → Derives .exprStmt (t ++ [.semicolon])
  | printStmt {t} : Derives .expression t →
      Derives .printStmt (.printWord :: t ++ [.semicolon])
  | returnStmt {t} : Derives (.optional .expression) t →
      Derives .returnStmt (.returnWord :: t ++ [.semicolon])
  | forStmt {d t u v w} : Derives .forFirst t → Derives (.optional .expression) u →
      Derives (.optional .expression) v → Derives (.statement d) w →
      Derives (.forStmt d)
        (.forWord :: .leftParen :: t ++ u ++ .semicolon :: v ++ .rightParen :: w)
  | forFirstVar {t} : Derives .varDecl t → Derives .forFirst t
  | forFirstExpr {t} : Derives .exprStmt t → Derives .forFirst t
  | forFirstNone : Derives .forFirst [.semicolon]
  | whileStmt {d t u} : Derives .expression t → Derives (.statement d) u →
      Derives (.whileStmt d) (.whileWord :: .leftParen :: t ++ .rightParen :: u)
  | ifStmt {d t u} : Derives .expression t → Derives (.statement d) u →
      Derives (.ifStmt true) (.ifWord :: .leftParen :: t ++ .rightParen :: u)
  | ifElseStmt {d t u v} : Derives .expression t → Derives (.statement false) u →
      Derives (.statement d) v →
      Derives (.ifStmt d)
        (.ifWord :: .leftParen :: t ++ .rightParen :: u ++ .elseWord :: v)
  | block {t} : Derives (.many .declaration) t →
      Derives .block (.leftBrace :: t ++ [.rightBrace])
  -- expressions
  | expression {t} : Derives .assignment t → Derives .expression t
  | assignmentName {t} : Derives .assignment t →
      Derives .assignment (.identifier :: .equal :: t)
  | assignmentProperty {t u} : Derives .call t → Derives .assignment u →
      Derives .assignment (t ++ .dot :: .identifier :: .equal :: u)
  | assignmentPlain {t} : Derives .logicOr t → Derives .assignment t
  | logicOr {t u} : Derives .logicAnd t → Derives (.joined [.orWord] .logicAnd) u →
      Derives .logicOr (t ++ u)
  | logicAnd {t u} : Derives .equality t → Derives (.joined [.andWord] .equality) u →
      Derives .logicAnd (t ++ u)
  | equality {t u} : Derives .comparison t →
      Derives (.joined [.bangEqual, .equalEqual] .comparison) u → Derives .equality (t ++ u)
  | comparison {t u} : Derives .term t →
      Derives (.joined [.greater, .greaterEqual, .less, .lessEqual] .term) u →
      Derives .comparison (t ++ u)
  | term {t u} : Derives .factor t → Derives (.joined [.minus, .plus] .factor) u →
      Derives .term (t ++ u)
  | factor {t u} : Derives .unary t → Derives (.joined [.star, .slash] .unary) u →
      Derives .factor (t ++ u)
  | unaryOperator {op t} : op ∈ [.bang, .minus] → Derives .unary t → Derives .unary (op :: t)
  | unaryCall {t} : Derives .call t → Derives .unary t
  | call {t u} : Derives .primary t → Derives .suffixes u → Derives .call (t ++ u)
  | suffixesNil : Derives .suffixes []
  | suffixesCall {n t u} : n ≤ maxArity → Derives (.optional (.arguments n)) t →
      Derives .suffixes u → Derives .suffixes (.leftParen :: t ++ .rightParen :: u)
  | suffixesProperty {u} : Derives .suffixes u → Derives .suffixes (.dot :: .identifier :: u)
  | argumentsOne {t} : Derives .expression t → Derives (.arguments 1) t
  | argumentsMore {n t u} : Derives .expression t → Derives (.arguments n) u →
      Derives (.arguments (n + 1)) (t ++ .comma :: u)
  | primaryWord {k} :
      k ∈ [.number, .string, .trueWord, .falseWord, .nilWord, .thisWord, .identifier] →
      Derives .primary [k]
  | primaryGroup {t} : Derives .expression t →
      Derives .primary (.leftParen :: t ++ [.rightParen])

end ScriptLang.Grammar
