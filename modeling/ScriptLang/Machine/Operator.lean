/-
ScriptLang.Machine.Operator — what operators do to values.

Both operands of a binary operator have been evaluated before it looks at
them. Sums join two strings or add two numbers; the other arithmetic and the
comparisons take numbers only; equality takes anything. Arithmetic is that of
IEEE 754, so a division by zero has a result. A token that is no operator has
a fault of its own.
-/
import ScriptLang.Fault
import ScriptLang.Value

namespace ScriptLang.Operator

/-- The result of a unary operator. -/
def unary (operator : Token) (operand : Value) : Except RuntimeCause Value :=
  match operator.kind with
  | .bang => .ok (.bool !operand.isTruthy)
  | .minus =>
    match operand with
    | .number x => .ok (.number (-x))
    | _ => .error .operandNotNumber
  | _ => .error (.invalidUnary operator.lexeme)

/-- The result of an operation on two numbers. -/
def onNumbers (operation : Float → Float → Value) (left right : Value) :
    Except RuntimeCause Value :=
  match left, right with
  | .number a, .number b => .ok (operation a b)
  | _, _ => .error .operandsNotNumbers

/-- The sum of two numbers, or two strings joined. -/
def add (left right : Value) : Except RuntimeCause Value :=
  match left, right with
  | .number a, .number b => .ok (.number (a + b))
  | .text a, .text b => .ok (.text (a ++ b))
  | _, _ => .error .operandsNotAddable

/-- The result of a binary operator. -/
def binary (operator : Token) (left right : Value) : Except RuntimeCause Value :=
  match operator.kind with
  | .plus => add left right
  | .minus => onNumbers (fun a b => .number (a - b)) left right
  | .star => onNumbers (fun a b => .number (a * b)) left right
  | .slash => onNumbers (fun a b => .number (a / b)) left right
  | .greater => onNumbers (fun a b => .bool (a > b)) left right
  | .greaterEqual => onNumbers (fun a b => .bool (a ≥ b)) left right
  | .less => onNumbers (fun a b => .bool (a < b)) left right
  | .lessEqual => onNumbers (fun a b => .bool (a ≤ b)) left right
  | .equalEqual => .ok (.bool (left.equals right))
  | .bangEqual => .ok (.bool !(left.equals right))
  | _ => .error (.invalidBinary operator.lexeme)

/-- Whether the left side of `or` or `and` decides the result. -/
def decides (operator : Token) (left : Value) : Bool :=
  if operator.kind = .orWord then left.isTruthy else !left.isTruthy

end ScriptLang.Operator
