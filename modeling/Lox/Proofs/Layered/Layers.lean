import Lox.Proofs.Grammar.Program

set_option autoImplicit false

/-! The grammar of expressions, layer by layer: one rule for each level at which operators bind. A layer
of operators that group to the left is a loop over operands of the next tighter layer; a layer of
operators that group to the right takes itself on the right. -/

namespace Lox.Grammar

/-- What the layers refer back to, and a bound on how often one of their parts is repeated. The bodies of
functions hold statements. -/
structure Layers where
  bound : Nat
  toAssignment : Rule Expr
  toTernary : Rule Expr
  toExponent : Rule Expr
  toUnary : Rule Expr
  toBody : Rule FunctionDecl

/-- Operators that group to the left, and the node that each of them makes of its operands. -/
structure LeftOperators where
  terminals : List Terminal
  node : Expr → Token → Expr → Expr

namespace Layers

variable (layers : Layers)

/-- Groupings, literals, names, `this` and function literals. -/
def primary : Rule Expr := do
  let token ← Rule.peek
  match token.kind with
  | .symbol .leftParen =>
    Rule.advance
    let inner ← layers.toAssignment
    let _ ← Rule.expect (.symbol .rightParen) .groupClose
    return .grouping inner
  | .keyword .falseWord =>
    Rule.advance
    return .literal (.bool false)
  | .keyword .trueWord =>
    Rule.advance
    return .literal (.bool true)
  | .keyword .nilWord =>
    Rule.advance
    return .literal .nil
  | .number value =>
    Rule.advance
    return .literal (.number value)
  | .string contents =>
    Rule.advance
    return .literal (.string contents)
  | .keyword .funWord =>
    Rule.advance
    return .function (← layers.toBody)
  | .identifier =>
    Rule.advance
    return .variable (← Rule.fresh) token
  | .keyword .thisWord =>
    Rule.advance
    return .this (← Rule.fresh) token
  | _ => Rule.failAt .expression token

/-- One more argument, of which there are at most 255. -/
def argumentRound (found : List Expr) : Rule (Rule.Round (List Expr) (List Expr)) := do
  if 255 ≤ found.length then
    Rule.fail .tooManyArguments
  else
    let argument ← layers.toAssignment
    if ← Rule.accept (.symbol .comma) then
      return .again (argument :: found)
    else
      return .finish (argument :: found).reverse

def arguments : Rule (List Expr) := do
  if ← Rule.check (.symbol .rightParen) then
    return []
  else
    Rule.iterate layers.argumentRound layers.bound []

/-- One more list of arguments or property name. -/
def callRound (left : Expr) : Rule (Rule.Round Expr Expr) := do
  let operator ← Rule.peek
  if operator.terminal? = some (.symbol .leftParen) then
    Rule.advance
    let arguments ← layers.arguments
    let _ ← Rule.expect (.symbol .rightParen) .argumentsClose
    return .again (.call left operator arguments)
  else if operator.terminal? = some (.symbol .dot) then
    Rule.advance
    return .again (.get left (← Rule.expect .name .propertyName))
  else
    return .finish left

def call : Rule Expr := do
  let left ← layers.primary
  Rule.iterate layers.callRound layers.bound left

def unary : Rule Expr := do
  let operator ← Rule.peek
  if operator.terminal? = some (.symbol .bang) ∨ operator.terminal? = some (.symbol .minus) then
    Rule.advance
    return .unary operator (← layers.toUnary)
  else
    layers.call

def exponent : Rule Expr := do
  let left ← layers.unary
  let operator ← Rule.peek
  if operator.terminal? = some (.symbol .starStar) then
    Rule.advance
    return .binary left operator (← layers.toExponent)
  else
    return left

/-- One more operator of a layer that groups to the left, with its right operand. -/
def leftRound (operators : LeftOperators) (tighter : Rule Expr) (left : Expr) :
    Rule (Rule.Round Expr Expr) := do
  let operator ← Rule.peek
  if operator.terminal?.any operators.terminals.contains then
    Rule.advance
    return .again (operators.node left operator (← tighter))
  else
    return .finish left

def leftLayer (operators : LeftOperators) (tighter : Rule Expr) : Rule Expr := do
  let left ← tighter
  Rule.iterate (leftRound operators tighter) layers.bound left

def factor : Rule Expr :=
  layers.leftLayer ⟨[.symbol .slash, .symbol .star], .binary⟩ layers.exponent

def term : Rule Expr :=
  layers.leftLayer ⟨[.symbol .minus, .symbol .plus], .binary⟩ layers.factor

def comparison : Rule Expr :=
  layers.leftLayer
    ⟨[.symbol .less, .symbol .lessEqual, .symbol .greater, .symbol .greaterEqual], .binary⟩
    layers.term

def equality : Rule Expr :=
  layers.leftLayer ⟨[.symbol .bangEqual, .symbol .equalEqual], .binary⟩ layers.comparison

def and : Rule Expr :=
  layers.leftLayer ⟨[.keyword .andWord], .logical⟩ layers.equality

def or : Rule Expr :=
  layers.leftLayer ⟨[.keyword .orWord], .logical⟩ layers.and

def ternary : Rule Expr := do
  let condition ← layers.or
  let operator ← Rule.peek
  if operator.terminal? = some (.symbol .question) then
    Rule.advance
    let thenBranch ← layers.toAssignment
    let _ ← Rule.expect (.symbol .colon) .ternaryColon
    return .ternary condition thenBranch (← layers.toTernary)
  else
    return condition

/-- What is on the left of an assignment is read before it is known to be a target. -/
def assignment : Rule Expr := do
  let target ← layers.ternary
  let operator ← Rule.peek
  if operator.terminal? = some (.symbol .equal) then
    Rule.advance
    let value ← layers.toAssignment
    match target with
    | .variable id name => return .assign id name value
    | .get object name => return .set object name value
    | _ => Rule.failAt .invalidTarget operator
  else
    return target

/-- The layer of the expressions whose operators all bind tighter than a level. -/
def above : Level → Rule Expr
  | .lowest => layers.assignment
  | .assignment => layers.ternary
  | .ternary => layers.or
  | .or => layers.and
  | .and => layers.equality
  | .equality => layers.comparison
  | .comparison => layers.term
  | .term => layers.factor
  | .factor => layers.exponent
  | _ => layers.unary

end Layers

def layersAt : Nat → Layers
  | 0 => ⟨0, throw .exhausted, throw .exhausted, throw .exhausted, throw .exhausted,
      (rulesAt 0).functionBody none .function⟩
  | depth + 1 =>
    let inner := layersAt depth
    ⟨depth + 1, inner.assignment, inner.ternary, inner.exponent, inner.unary,
      (rulesAt (depth + 1)).functionBody none .function⟩

/-- Reads an expression whose operators bind tighter than `min`, layer by layer. -/
def layered (min : Level) (cursor : Cursor) : EStateM.Result Failure Cursor Expr :=
  (layersAt cursor.depth).above min cursor

end Lox.Grammar
