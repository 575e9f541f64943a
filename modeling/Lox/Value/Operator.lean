import Lox.Diagnostic
import Lox.Value.Basic

set_option autoImplicit false

/-! Operators on values, and what can go wrong while a program runs. -/

namespace Lox

inductive RuntimeFault where
  | undefinedVariable (name : String)
  | undefinedProperty (name : String)
  | propertyOfOther
  | fieldOfOther
  | notCallable
  | arity (expected found : Nat)
  | tooDeep
  | numberOperand
  | numberOperands
  | additiveOperands
  | unknownUnary
  | unknownBinary
deriving Repr, DecidableEq, Inhabited

def RuntimeFault.message : RuntimeFault → String
  | undefinedVariable name => "Undefined variable '" ++ name ++ "'."
  | undefinedProperty name => "Undefined property '" ++ name ++ "'."
  | propertyOfOther => "Only instances have properties."
  | fieldOfOther => "Only instances have fields."
  | notCallable => "Can only call functions and classes."
  | arity expected found =>
    "Expected " ++ toString expected ++ " arguments but got " ++ toString found ++ "."
  | tooDeep => "Maximum recursion depth exceeded."
  | numberOperand => "Operand must be a number."
  | numberOperands => "Operands must be numbers."
  | additiveOperands => "Operands must be two numbers or two strings."
  | unknownUnary => "Unknown unary operator."
  | unknownBinary => "Unknown binary operator."

namespace Value

/-- Division by either zero is not a number. -/
def divide (a b : Float) : Float :=
  if b == 0.0 then 0.0 / 0.0 else a / b

def applyUnary (operator : Token.Kind) (right : Value) : Except RuntimeFault Value :=
  match operator with
  | .symbol .minus =>
    match right with
    | number n => .ok (number (-n))
    | _ => .error .numberOperand
  | .symbol .bang => .ok (bool !right.isTruthy)
  | _ => .error .unknownUnary

def applyNumeric (operator : Token.Kind) (a b : Float) : Except RuntimeFault Value :=
  match operator with
  | .symbol .minus => .ok (number (a - b))
  | .symbol .star => .ok (number (a * b))
  | .symbol .slash => .ok (number (divide a b))
  | .symbol .starStar => .ok (number (a.pow b))
  | .symbol .greater => .ok (bool (decide (a > b)))
  | .symbol .greaterEqual => .ok (bool (decide (a ≥ b)))
  | .symbol .less => .ok (bool (decide (a < b)))
  | .symbol .lessEqual => .ok (bool (decide (a ≤ b)))
  | _ => .error .unknownBinary

/-- Operands are checked before it is asked whether the operator is one. -/
def applyBinary (operator : Token.Kind) (left right : Value) : Except RuntimeFault Value :=
  match operator with
  | .symbol .plus =>
    match left, right with
    | number a, number b => .ok (number (a + b))
    | string a, string b => .ok (string (a ++ b))
    | _, _ => .error .additiveOperands
  | .symbol .equalEqual => .ok (bool (left.equals right))
  | .symbol .bangEqual => .ok (bool !left.equals right)
  | _ =>
    match left, right with
    | number a, number b => applyNumeric operator a b
    | _, _ => .error .numberOperands

/-- Whether the left operand alone decides: `or` yields a true one, and any other logical operator
a false one. -/
def decidesAlone (operator : Token.Kind) (left : Value) : Bool :=
  match operator with
  | .keyword .orWord => left.isTruthy
  | _ => !left.isTruthy

end Value
end Lox
