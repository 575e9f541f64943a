import Lox.Token.Basic

set_option autoImplicit false

/-! Binding levels. An operator between two operands has a level; a higher level binds tighter. -/

namespace Lox.Grammar

/-- Levels from the loosest to the tightest. -/
inductive Level where
  | lowest | assignment | ternary | or | and | equality | comparison | term | factor | exponent
  | unary | call | primary
deriving Repr, DecidableEq, Inhabited

namespace Level

def rank : Level → Nat
  | lowest => 0 | assignment => 1 | ternary => 2 | or => 3 | and => 4 | equality => 5
  | comparison => 6 | term => 7 | factor => 8 | exponent => 9 | unary => 10 | call => 11
  | primary => 12

def all : List Level :=
  [lowest, assignment, ternary, or, and, equality, comparison, term, factor, exponent, unary, call,
   primary]

def name : Level → String
  | lowest => "None" | assignment => "Assignment" | ternary => "Ternary" | or => "Or"
  | and => "And" | equality => "Equality" | comparison => "Comparison" | term => "Term"
  | factor => "Factor" | exponent => "Exponent" | unary => "Unary" | call => "Call"
  | primary => "Primary"

def ofName? (name : String) : Option Level :=
  all.find? (·.name == name)

def lower : Level → Level
  | lowest | assignment => lowest
  | ternary => assignment
  | or => ternary
  | and => or
  | equality => and
  | comparison => equality
  | term => comparison
  | factor => term
  | exponent => factor
  | unary => exponent
  | call => unary
  | primary => call

def ofSymbol? : Symbol → Option Level
  | .equal => some assignment
  | .question => some ternary
  | .bangEqual | .equalEqual => some equality
  | .less | .lessEqual | .greater | .greaterEqual => some comparison
  | .minus | .plus => some term
  | .slash | .star => some factor
  | .starStar => some exponent
  | .leftParen | .dot => some call
  | _ => none

def ofKind? : Token.Kind → Option Level
  | .symbol s => ofSymbol? s
  | .keyword .orWord => some or
  | .keyword .andWord => some and
  | _ => none

/-- The level above which the right operand of an operator must bind. Assignment, the conditional
and the power take an operand of their own level on the right. -/
def ofRightOperand (level : Level) : Token.Kind → Level
  | .symbol .equal | .symbol .question | .symbol .starStar => level.lower
  | _ => level

end Level
end Lox.Grammar
