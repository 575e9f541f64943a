import Lox.Decimal.Notation
import Lox.Syntax.Basic

set_option autoImplicit false

/-! Values. Functions, classes and instances are shared objects of a heap, and a value names its
object; so two of them are equal exactly when they are the same object. -/

namespace Lox

abbrev FunctionId := Nat
abbrev ClassId := Nat
abbrev InstanceId := Nat

inductive Value where
  | nil
  | bool (value : Bool)
  | number (value : Float)
  | string (value : String)
  | function (id : FunctionId)
  | class (id : ClassId)
  | instance (id : InstanceId)
deriving Repr, Inhabited

namespace Value

/-- Only `nil` and `false` do not count as true. -/
def isTruthy : Value → Bool
  | nil => false
  | bool value => value
  | _ => true

/-- Equality of values of one type; values of different types are never equal. Numbers compare as
doubles do, so that a NaN differs from itself. -/
def equals : Value → Value → Bool
  | nil, nil => true
  | bool a, bool b => a == b
  | number a, number b => a == b
  | string a, string b => a == b
  | .function a, .function b => a == b
  | .class a, .class b => a == b
  | .instance a, .instance b => a == b
  | _, _ => false

def typeName : Value → String
  | nil => "nil"
  | bool _ => "boolean"
  | number _ => "number"
  | string _ => "string"
  | .function _ => "function"
  | .class _ => "class"
  | .instance _ => "instance"

/-- Printed numbers: never an exponent, and no point in a whole number. -/
def numberStyle : Decimal.Style where
  whole := .bare
  tie := .up
  positional := none
  nan := "nan"
  infinity := "inf"
  minusInfinity := "-inf"

def ofLiteral : Literal → Value
  | .nil => nil
  | .bool value => bool value
  | .number value => number value
  | .string value => string value

end Value
end Lox
