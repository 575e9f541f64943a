import Lox.Grammar.Cursor
import Lox.Grammar.Level

set_option autoImplicit false

/-! Blocks and the bodies of functions, given the rules for what they contain. -/

namespace Lox.Grammar

/-- The rules that refer to each other, and a bound on how often one of their parts is repeated. -/
structure Rules where
  bound : Nat
  expression : Level → Rule Expr
  statement : Rule Stmt
  declaration : Rule (Option Stmt)

def maxArity : Nat := 255

namespace Rules

variable (rules : Rules)

def blockRound (found : List Stmt) : Rule (Rule.Round (List Stmt) (List Stmt)) := do
  if (← Rule.check (.symbol .rightBrace)) || (← Rule.atEnd) then
    return .finish found.reverse
  else
    match ← rules.declaration with
    | some stmt => return .again (stmt :: found)
    | none => return .again found

def block : Rule (List Stmt) := do
  let body ← Rule.iterate rules.blockRound rules.bound []
  let _ ← Rule.expect (.symbol .rightBrace) .blockClose
  return body

def parameterRound (found : List Param) : Rule (Rule.Round (List Param) (List Param)) := do
  if maxArity ≤ found.length then
    Rule.fail .tooManyParameters
  else
    let name ← Rule.expect .name .parameterName
    let id ← Rule.fresh
    let found := ⟨id, name⟩ :: found
    if ← Rule.accept (.symbol .comma) then
      return .again found
    else
      return .finish found.reverse

def parameters : Rule (List Param) := do
  if ← Rule.check (.symbol .rightParen) then
    return []
  else
    Rule.iterate parameterRound rules.bound []

def functionBody (name : Option Token) (kind : FunctionKind) : Rule FunctionDecl := do
  let ofMethod := kind != .function
  let _ ← Rule.expect (.symbol .leftParen) (.parametersOpen ofMethod)
  let params ← rules.parameters
  let _ ← Rule.expect (.symbol .rightParen) .parametersClose
  let _ ← Rule.expect (.symbol .leftBrace) (.bodyOpen ofMethod)
  let body ← rules.block
  return .mk name kind params body

end Rules
end Lox.Grammar
