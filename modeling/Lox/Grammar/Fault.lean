import Lox.Diagnostic

set_option autoImplicit false

/-! Syntax errors: what the grammar asks for where a token does not fit. -/

namespace Lox

inductive SyntaxFault where
  | className | classOpen | classClose
  | fieldName | memberName | fieldEnd
  | functionName
  | parametersOpen (ofMethod : Bool) | parameterName | parametersClose | tooManyParameters
  | bodyOpen (ofMethod : Bool) | blockClose
  | variableName | variableEnd
  | forOpen | loopConditionEnd | forClose
  | ifOpen | ifClose | whileOpen | whileClose
  | switchOpen | switchClose | armsOpen | armArrow | armsClose | duplicateDefault
  | printEnd | returnEnd | expressionEnd
  | expression | groupClose | propertyName | ternaryColon | invalidTarget
  | tooManyArguments | argumentsClose
deriving Repr, DecidableEq, Inhabited

namespace SyntaxFault

def label (ofMethod : Bool) : String :=
  if ofMethod then "method" else "function"

def message : SyntaxFault → String
  | className => "Expect class name."
  | classOpen => "Expect '\x7b' before class body."
  | classClose => "Expect '\x7d' after class body."
  | fieldName => "Expect field name."
  | memberName => "Expect method or field declaration."
  | fieldEnd => "Expect ';' after field declaration."
  | functionName => "Expect function name."
  | parametersOpen ofMethod => "Expect '(' before " ++ label ofMethod ++ " parameters."
  | parameterName => "Expect parameter name."
  | parametersClose => "Expect ')' after parameters."
  | tooManyParameters => "Can't have more than 255 parameters."
  | bodyOpen ofMethod => "Expect '\x7b' before " ++ label ofMethod ++ " body."
  | blockClose => "Expect '\x7d' after block."
  | variableName => "Expect variable name."
  | variableEnd => "Expect ';' after variable declaration."
  | forOpen => "Expect '(' after 'for'."
  | loopConditionEnd => "Expect ';' after loop condition."
  | forClose => "Expect ')' after for clauses."
  | ifOpen => "Expect '(' after 'if'."
  | ifClose => "Expect ')' after if condition."
  | whileOpen => "Expect '(' after 'while'."
  | whileClose => "Expect ')' after while condition."
  | switchOpen => "Expect '(' after 'switch'."
  | switchClose => "Expect ')' after switch condition."
  | armsOpen => "Expect '\x7b' before switch arms."
  | armArrow => "Expect '=>' after switch arm."
  | armsClose => "Expect '\x7d' after switch arms."
  | duplicateDefault => "Cannot have more than one default case."
  | printEnd => "Expect ';' after value."
  | returnEnd => "Expect ';' after return value."
  | expressionEnd => "Expect ';' after expression."
  | expression => "Expect expression."
  | groupClose => "Expect ')' after expression."
  | propertyName => "Expect property name after '.'."
  | ternaryColon => "Expect ':' in ternary if operator."
  | invalidTarget => "Invalid assignment target."
  | tooManyArguments => "Can't have more than 255 arguments."
  | argumentsClose => "Expect ')' after arguments."

/-- Reading goes on after any fault but a second default arm. -/
def isFatal : SyntaxFault → Bool
  | duplicateDefault => true
  | _ => false

end SyntaxFault

structure SyntaxError where
  fault : SyntaxFault
  token : Token
deriving Repr, Inhabited

def SyntaxError.diagnostic (e : SyntaxError) : Diagnostic :=
  ⟨.grammatical, e.fault.message, some e.token.span, e.fault.isFatal⟩

end Lox
