import Lox.Json.Document
import Lox.Token.Basic

set_option autoImplicit false

/-! Tokens as text, one line each, and as JSON. -/

namespace Lox.Token

/-- Numbers in listings: whole numbers below 10^15 keep a point, larger ones are bare digits. -/
def numberStyle : Decimal.Style where
  whole := .exact (some (Nat.pow 10 15))
  tie := .up
  positional := none
  nan := "NaN"
  infinity := "inf"
  minusInfinity := "-inf"

def Kind.literalText : Kind → String
  | .string contents => contents
  | .number value => Decimal.format numberStyle value
  | _ => "null"

def display (token : Token) : String :=
  token.kind.name ++ " " ++ token.lexeme ++ " " ++ token.kind.literalText

def Kind.toJson : Kind → Json
  | .string contents => .object [("STRING", .string contents)]
  | .number value => .object [("NUMBER", .number value)]
  | kind => .string kind.name

def toJson (token : Token) : Json :=
  .object [("token_type", token.kind.toJson), ("lexeme", .string token.lexeme),
    ("offset", .natural token.offset)]

end Lox.Token
