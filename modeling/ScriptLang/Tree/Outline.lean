/-
ScriptLang.Tree.Outline — trees written in parenthesised form.

An outline puts every operator before its operands and a pair of parentheses
around each compound, so `1 + (2 * 3)` is `(+ 1.0 (group (* 2.0 3.0)))`. Names
and strings are written as they are. A whole number shows all its digits and
one zero after the point; other numbers are written in plain positional form.
-/
import ScriptLang.Decimal.Layout
import ScriptLang.Tree

namespace ScriptLang

open Decimal (Layout wholeWithPoint)

/-! ## 1. Expressions -/

/-- The outline of a number. A negative zero keeps its sign. -/
def Constant.numberOutline (x : Float) : String :=
  match Decimal.whole? x with
  | some (negative, n) => wholeWithPoint negative n
  | none => Layout.plain.write x

/-- The outline of a constant. A string shows its characters as they are. -/
def Constant.outline : Constant → String
  | .number x => Constant.numberOutline x
  | .text s => s
  | .bool true => "true"
  | .bool false => "false"
  | .nil => "nil"

mutual
/-- The outline of an expression. -/
def Expr.outline : Expr → String
  | .literal _ value => value.outline
  | .group _ inner => "(group " ++ inner.outline ++ ")"
  | .unary _ operator operand => "(" ++ operator.lexeme ++ " " ++ operand.outline ++ ")"
  | .binary _ left operator right =>
    "(" ++ operator.lexeme ++ " " ++ left.outline ++ " " ++ right.outline ++ ")"
  | .logical _ left operator right =>
    "(" ++ operator.lexeme ++ " " ++ left.outline ++ " " ++ right.outline ++ ")"
  | .read _ name => name.lexeme
  | .assign _ name value => "(= " ++ name.lexeme ++ " " ++ value.outline ++ ")"
  | .call _ callee _ arguments =>
    "(call " ++ callee.outline ++ Expr.outlineAll arguments ++ ")"
  | .property _ object name => "(. " ++ object.outline ++ " " ++ name.lexeme ++ ")"
  | .setProperty _ object name value =>
    "(= (. " ++ object.outline ++ " " ++ name.lexeme ++ ") " ++ value.outline ++ ")"
  | .self _ _ => "this"

/-- The outlines of some expressions, a blank before each. -/
def Expr.outlineAll : List Expr → String
  | [] => ""
  | e :: rest => " " ++ e.outline ++ Expr.outlineAll rest
end

/-! ## 2. Statements -/

/-- The outline of an expression that may be missing, with a blank before it. -/
def Expr.outlineOption : Option Expr → String
  | some e => " " ++ e.outline
  | none => ""

mutual
/-- The outline of a statement. -/
def Stmt.outline : Stmt → String
  | .expression value => "(; " ++ value.outline ++ ")"
  | .print value => "(print " ++ value.outline ++ ")"
  | .var name initializer =>
    "(var " ++ name.lexeme ++ Expr.outlineOption initializer ++ ")"
  | .block body => "(block" ++ Stmt.outlineAll body ++ ")"
  | .ifThen condition thenBranch =>
    "(if " ++ condition.outline ++ " " ++ thenBranch.outline ++ ")"
  | .ifElse condition thenBranch elseBranch =>
    "(if " ++ condition.outline ++ " " ++ thenBranch.outline ++ " " ++ elseBranch.outline ++ ")"
  | .loop condition body => "(while " ++ condition.outline ++ " " ++ body.outline ++ ")"
  | .function routine => routine.outline "fun"
  | .ret _ value => "(return" ++ Expr.outlineOption value ++ ")"
  | .classDecl name methods => "(class " ++ name.lexeme ++ Routine.outlineAll methods ++ ")"

/-- The outlines of some statements, a blank before each. -/
def Stmt.outlineAll : List Stmt → String
  | [] => ""
  | s :: rest => " " ++ s.outline ++ Stmt.outlineAll rest

/-- The outline of a routine: a head word, name, parameters in parentheses, and body. -/
def Routine.outline (head : String) : Routine → String
  | ⟨name, parameters, body⟩ =>
    "(" ++ head ++ " " ++ name.lexeme ++ " (" ++ " ".intercalate (parameters.map Token.lexeme)
      ++ ")" ++ Stmt.outlineAll body ++ ")"

/-- The outlines of some methods, a blank before each. -/
def Routine.outlineAll : List Routine → String
  | [] => ""
  | r :: rest => " " ++ r.outline "method" ++ Routine.outlineAll rest
end

end ScriptLang
