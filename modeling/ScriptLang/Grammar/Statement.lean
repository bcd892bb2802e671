/-
ScriptLang.Grammar.Statement — reading statements, declarations and scripts.

    script      → declaration*
    declaration → "class" IDENT "{" routine* "}" | "fun" routine
                | "var" IDENT ( "=" expression )? ";" | statement
    routine     → IDENT "(" parameters? ")" block
    statement   → "for" "(" ( "var" … | expression ";" | ";" ) expression? ";" expression? ")"
                    statement
                | "if" "(" expression ")" statement ( "else" statement )?
                | "print" expression ";" | "return" expression? ";"
                | "while" "(" expression ")" statement
                | block | expression ";"
    block       → "{" declaration* "}"

A declaration is where faults stop: the declaration that has one is left out
of the result, and reading goes on with the next sentence. An `else` belongs
to the nearest `if`.

`for` becomes a `while` loop. The increment, if there is one, follows the body
in a block of its own; a missing condition is `true`; and the initializer, if
there is one, opens a block around the loop.
-/
import ScriptLang.Grammar.Expression

namespace ScriptLang.Grammar

/-! ## 1. Parts without statements in them -/

/-- An expression, unless the next token is of a kind. -/
def expressionUnless (kind : Kind) : Reading (Option Expr) := do
  if ← next? kind then pure none else some <$> expression

/-- After `var`. -/
def varDeclaration : Reading Stmt := do
  let name ← require .identifier .variableName
  let initializer ← if ← skip? .equal then some <$> expression else pure none
  let _ ← require .semicolon .variableEnd
  pure (.var name initializer)

/-- An expression and its semicolon. -/
def expressionStatement : Reading Stmt := do
  let value ← expression
  let _ ← require .semicolon .expressionEnd
  pure (.expression value)

/-- After `print`. -/
def printStatement : Reading Stmt := do
  let value ← expression
  let _ ← require .semicolon .printEnd
  pure (.print value)

/-- After the word `return`. -/
def returnStatement (keyword : Token) : Reading Stmt := do
  let value ← expressionUnless .semicolon
  let _ ← require .semicolon .returnEnd
  pure (.ret keyword value)

/-! ## 2. Rules that refer to the whole grammar

In each rule, `declaration` reads a declaration, which is nothing if it has a
fault, and `statement` reads a statement. -/

/-- Declarations up to the closing brace, which is taken too. -/
def blockWith (declaration : Reading (Option Stmt)) : Reading (List Stmt) := do
  let body ← iterate [] fun body => do
    if (← next? .rightBrace) || (← atEnd) then pure (.inr body)
    else pure (.inl (body ++ (← declaration).toList))
  let _ ← require .rightBrace .blockEnd
  pure body

/-- Name, parameters and body of a function or method. -/
def routineWith (declaration : Reading (Option Stmt)) (role : RoutineRole) : Reading Routine := do
  let name ← require .identifier (.routineName role)
  let _ ← require .leftParen (.parametersStart role)
  let parameters ← if ← next? .rightParen then pure []
    else commaSeparated .parameters (require .identifier .parameterName)
  let _ ← require .rightParen .parametersEnd
  let _ ← require .leftBrace (.routineBodyStart role)
  let body ← blockWith declaration
  pure ⟨name, parameters, body⟩

/-- After `class`. -/
def classDeclarationWith (declaration : Reading (Option Stmt)) : Reading Stmt := do
  let name ← require .identifier .className
  let _ ← require .leftBrace .classBodyStart
  let methods ← iterate [] fun methods => do
    if (← next? .rightBrace) || (← atEnd) then pure (.inr methods)
    else pure (.inl (methods ++ [← routineWith declaration .method]))
  let _ ← require .rightBrace .classBodyEnd
  pure (.classDecl name methods)

/-- The tree of a `for` loop. -/
def forLoop (initializer : Option Stmt) (condition : Expr) (increment : Option Expr)
    (body : Stmt) : Stmt :=
  let round := match increment with
    | some increment => .block [body, .expression increment]
    | none => body
  let loop := .loop condition round
  match initializer with
  | some initializer => .block [initializer, loop]
  | none => loop

/-- The first clause of a `for` loop, with its semicolon. -/
def forInitializer : Reading (Option Stmt) := do
  if ← skip? .semicolon then pure none
  else if ← skip? .varWord then some <$> varDeclaration
  else some <$> expressionStatement

/-- After `for`. -/
def forStatementWith (statement : Reading Stmt) : Reading Stmt := do
  let _ ← require .leftParen .forStart
  let initializer ← forInitializer
  let condition ← expressionUnless .semicolon
  let _ ← require .semicolon .forConditionEnd
  let increment ← expressionUnless .rightParen
  let _ ← require .rightParen .forClausesEnd
  let body ← statement
  let condition ← match condition with
    | some condition => pure condition
    | none => pure (.literal (← fresh) (.bool true))
  pure (forLoop initializer condition increment body)

/-- After `if`. -/
def ifStatementWith (statement : Reading Stmt) : Reading Stmt := do
  let _ ← require .leftParen .ifStart
  let condition ← expression
  let _ ← require .rightParen .ifConditionEnd
  let thenBranch ← statement
  if ← skip? .elseWord then pure (.ifElse condition thenBranch (← statement))
  else pure (.ifThen condition thenBranch)

/-- After `while`. -/
def whileStatementWith (statement : Reading Stmt) : Reading Stmt := do
  let _ ← require .leftParen .whileStart
  let condition ← expression
  let _ ← require .rightParen .whileConditionEnd
  pure (.loop condition (← statement))

/-- A statement of any kind. -/
def statementWith (declaration : Reading (Option Stmt)) (statement : Reading Stmt) :
    Reading Stmt := do
  match ← accept? [.forWord, .ifWord, .printWord, .returnWord, .whileWord, .leftBrace] with
  | none => expressionStatement
  | some token =>
    match token.kind with
    | .forWord => forStatementWith statement
    | .ifWord => ifStatementWith statement
    | .printWord => printStatement
    | .returnWord => returnStatement token
    | .whileWord => whileStatementWith statement
    | _ => .block <$> blockWith declaration

/-- A declaration of any kind. -/
def declarationWith (declaration : Reading (Option Stmt)) (statement : Reading Stmt) :
    Reading (Option Stmt) :=
  recovering do
    match ← accept? [.classWord, .funWord, .varWord] with
    | none => statement
    | some token =>
      match token.kind with
      | .classWord => classDeclarationWith declaration
      | .funWord => .function <$> routineWith declaration .function
      | _ => varDeclaration

/-! ## 3. The knot -/

mutual
/-- A declaration with at most one sentence inside another for each of the given tokens. -/
def declarationAlong : List Token → Reading (Option Stmt)
  | [] => declarationWith (recovering (fail .tooDeep))
      (statementWith (recovering (fail .tooDeep)) (fail .tooDeep))
  | _ :: rest => fun s =>
    declarationWith (declarationAlong rest)
      (statementWith (declarationAlong rest) (statementAlong rest)) s

/-- A statement with at most one sentence inside another for each of the given tokens. -/
def statementAlong : List Token → Reading Stmt
  | [] => statementWith (recovering (fail .tooDeep)) (fail .tooDeep)
  | _ :: rest => fun s => statementWith (declarationAlong rest) (statementAlong rest) s
end

/-- A declaration. An inner sentence begins after at least one more token than the outer one,
so there are never more inside one another than there are tokens ahead. -/
def declaration : Reading (Option Stmt) := do
  declarationAlong (← get).ahead

/-- All declarations up to the end of the input. -/
def script : Reading (List Stmt) :=
  iterate [] fun statements => do
    if ← atEnd then pure (.inr statements)
    else pure (.inl (statements ++ (← declaration).toList))

end ScriptLang.Grammar
