/-
ScriptLang.Value — what expressions evaluate to.

Numbers, strings, booleans and `nil` are their own content. Functions, classes
and instances have identity: a value of these kinds is the number of an entry
in the store, and two of them are equal when they are the same entry. So a
value is always flat, and everything that can change or refer back lives in
the store.
-/
import ScriptLang.Decimal.Layout

namespace ScriptLang

/-- A value. The last four kinds point into the store. -/
inductive Value where
  | nil
  | bool (value : Bool)
  | number (value : Float)
  | text (value : String)
  /-- A function that the host program provides. -/
  | host (id : Nat)
  | function (id : Nat)
  | classRef (id : Nat)
  | object (id : Nat)
  deriving DecidableEq, Repr

namespace Value

/-- Only `nil` and `false` count as false; zero and the empty string count as true. -/
def isTruthy : Value → Bool
  | .nil => false
  | .bool b => b
  | _ => true

/-- The name of a value's type. -/
def typeName : Value → String
  | .nil => "nil"
  | .bool _ => "boolean"
  | .number _ => "number"
  | .text _ => "string"
  | .host _ => "function"
  | .function _ => "function"
  | .classRef _ => "class"
  | .object _ => "instance"

/-- Equality as scripts see it: no conversions, numbers as IEEE 754 compares them (so a NaN
differs from itself and the two zeros are equal), and identity for what lives in the store. -/
def equals : Value → Value → Bool
  | .nil, .nil => true
  | .bool a, .bool b => a == b
  | .number a, .number b => a == b
  | .text a, .text b => a == b
  | .host a, .host b => a == b
  | .function a, .function b => a == b
  | .classRef a, .classRef b => a == b
  | .object a, .object b => a == b
  | _, _ => false

/-- Numbers as scripts print them: never an exponent, never a `.0`, and the infinities by
name. -/
def numberLayout : Decimal.Layout where
  tie := .up
  positional := none
  pointZero := false
  notANumber := "NaN"
  infinity negative := if negative then "-Infinity" else "Infinity"

/-- The printed text of a number. -/
def numberText (x : Float) : String :=
  numberLayout.write x

end Value

end ScriptLang
