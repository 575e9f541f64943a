import Lox.Grammar.Function

set_option autoImplicit false

/-! Expressions. An operand is followed by operators as long as they bind tighter than the level
that was asked for; what each operator takes on its right is decided by its own level. -/

namespace Lox.Grammar.Rules

variable (rules : Rules)

def argumentRound (found : List Expr) : Rule (Rule.Round (List Expr) (List Expr)) := do
  if maxArity ≤ found.length then
    Rule.fail .tooManyArguments
  else
    let argument ← rules.expression .lowest
    if ← Rule.accept (.symbol .comma) then
      return .again (argument :: found)
    else
      return .finish (argument :: found).reverse

def arguments : Rule (List Expr) := do
  if ← Rule.check (.symbol .rightParen) then
    return []
  else
    Rule.iterate rules.argumentRound rules.bound []

/-- What an operand becomes when it is assigned to: only names and properties can be. -/
def assignment (equals : Token) (target value : Expr) : Rule Expr :=
  match target with
  | .variable id name => return .assign id name value
  | .get object name => return .set object name value
  | _ => Rule.failAt .invalidTarget equals

/-- A literal, a name, a prefix operator with its operand, or anything in parentheses. A token that
begins no operand is not passed. -/
def operand : Rule Expr := do
  let token ← Rule.peek
  match token.kind with
  | .symbol .leftParen =>
    Rule.advance
    let inner ← rules.expression .lowest
    let _ ← Rule.expect (.symbol .rightParen) .groupClose
    return .grouping inner
  | .symbol .bang | .symbol .minus =>
    Rule.advance
    return .unary token (← rules.expression .unary)
  | .keyword .falseWord =>
    Rule.advance
    return .literal (.bool false)
  | .keyword .trueWord =>
    Rule.advance
    return .literal (.bool true)
  | .keyword .nilWord =>
    Rule.advance
    return .literal .nil
  | .number value =>
    Rule.advance
    return .literal (.number value)
  | .string contents =>
    Rule.advance
    return .literal (.string contents)
  | .keyword .funWord =>
    Rule.advance
    return .function (← rules.functionBody none .function)
  | .identifier =>
    Rule.advance
    return .variable (← Rule.fresh) token
  | .keyword .thisWord =>
    Rule.advance
    return .this (← Rule.fresh) token
  | _ => Rule.failAt .expression token

def extend (left : Expr) (operator : Token) (level : Level) : Rule Expr := do
  let right := level.ofRightOperand operator.kind
  match operator.kind with
  | .symbol .leftParen =>
    let arguments ← rules.arguments
    let _ ← Rule.expect (.symbol .rightParen) .argumentsClose
    return .call left operator arguments
  | .symbol .dot =>
    return .get left (← Rule.expect .name .propertyName)
  | .symbol .question =>
    let thenBranch ← rules.expression .lowest
    let _ ← Rule.expect (.symbol .colon) .ternaryColon
    return .ternary left thenBranch (← rules.expression right)
  | .symbol .equal =>
    let value ← rules.expression right
    assignment operator left value
  | .keyword .andWord | .keyword .orWord =>
    return .logical left operator (← rules.expression right)
  | _ =>
    return .binary left operator (← rules.expression right)

/-- One more operator, unless the next token binds no tighter than `min`. -/
def operatorRound (min : Level) (left : Expr) : Rule (Rule.Round Expr Expr) := do
  let operator ← Rule.peek
  match Level.ofKind? operator.kind with
  | none => return .finish left
  | some level =>
    if level.rank ≤ min.rank then
      return .finish left
    else
      Rule.advance
      return .again (← rules.extend left operator level)

/-- An expression whose operators all bind tighter than `min`. -/
def expressionAt (min : Level) : Rule Expr := do
  let left ← rules.operand
  Rule.iterate (rules.operatorRound min) rules.bound left

end Lox.Grammar.Rules
