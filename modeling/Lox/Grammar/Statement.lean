import Lox.Grammar.Expression

set_option autoImplicit false

/-! Statements and declarations. A loop with clauses becomes a plain loop, in a block with its first
clause; a switch becomes a block that holds its subject in a hidden variable and compares it with
one arm after the other. -/

namespace Lox.Grammar.Rules

variable (rules : Rules)

def expressionStatement : Rule Stmt := do
  let value ← rules.expression .lowest
  let _ ← Rule.expect (.symbol .semicolon) .expressionEnd
  return .expression value

def printStatement : Rule Stmt := do
  let value ← rules.expression .lowest
  let _ ← Rule.expect (.symbol .semicolon) .printEnd
  return .print value

def returnStatement (keyword : Token) : Rule Stmt := do
  let value ← do
    if ← Rule.check (.symbol .semicolon) then pure none
    else some <$> rules.expression .lowest
  let _ ← Rule.expect (.symbol .semicolon) .returnEnd
  return .ret keyword value

def whileStatement : Rule Stmt := do
  let _ ← Rule.expect (.symbol .leftParen) .whileOpen
  let condition ← rules.expression .lowest
  let _ ← Rule.expect (.symbol .rightParen) .whileClose
  return .loop condition (← rules.statement).scoped

def ifStatement : Rule Stmt := do
  let _ ← Rule.expect (.symbol .leftParen) .ifOpen
  let condition ← rules.expression .lowest
  let _ ← Rule.expect (.symbol .rightParen) .ifClose
  let thenBranch ← rules.statement
  if ← Rule.accept (.keyword .elseWord) then
    return .branch condition thenBranch.scoped (some (← rules.statement).scoped)
  else
    return .branch condition thenBranch.scoped none

def initializer : Rule (Option Expr) := do
  if ← Rule.accept (.symbol .equal) then
    some <$> rules.expression .lowest
  else
    return none

def varDeclaration : Rule Stmt := do
  let name ← Rule.expect .name .variableName
  let id ← Rule.fresh
  let initial ← rules.initializer
  let _ ← Rule.expect (.symbol .semicolon) .variableEnd
  return .var id name initial

def forInitializer : Rule (Option Stmt) := do
  if ← Rule.accept (.symbol .semicolon) then
    return none
  else if ← Rule.accept (.keyword .varWord) then
    some <$> rules.varDeclaration
  else
    some <$> rules.expressionStatement

/-- A loop with clauses, written out: the last clause follows the body in one block. -/
def forLoop (first : Option Stmt) (condition : Expr) (last : Option Expr) (body : Stmt) : Stmt :=
  let body := match last with
    | some step => .block [body, .expression step]
    | none => body.scoped
  match first with
  | some first => .block [first, .loop condition body]
  | none => .loop condition body

def forStatement : Rule Stmt := do
  let _ ← Rule.expect (.symbol .leftParen) .forOpen
  let first ← rules.forInitializer
  let condition ← do
    if ← Rule.check (.symbol .semicolon) then pure (.literal (.bool true))
    else rules.expression .lowest
  let _ ← Rule.expect (.symbol .semicolon) .loopConditionEnd
  let last ← do
    if ← Rule.check (.symbol .rightParen) then pure none
    else some <$> rules.expression .lowest
  let _ ← Rule.expect (.symbol .rightParen) .forClose
  return forLoop first condition last (← rules.statement)

/-- The arms of a switch read so far, latest first, and the action of its default arm. -/
structure Arms where
  arms : List (Expr × Stmt)
  default : Option Stmt

/-- The default arm is the name `_`, alone. -/
def isDefaultPattern : Expr → Bool
  | .variable _ name => name.lexeme == "_"
  | _ => false

def armRound (found : Arms) : Rule (Rule.Round Arms Arms) := do
  if (← Rule.check (.symbol .rightBrace)) || (← Rule.atEnd) then
    return .finish found
  else
    let start ← Rule.peek
    let pattern ← rules.expression .lowest
    let _ ← Rule.expect (.symbol .equalGreater) .armArrow
    let action ← rules.statement
    if isDefaultPattern pattern then
      if found.default.isSome then
        Rule.failAt .duplicateDefault start
      else
        return .again { found with default := some action }
    else
      return .again { found with arms := (pattern, action) :: found.arms }

/-- The hidden variable of a switch. No name that can be written in a source holds a `#`. -/
def hiddenName (id : NodeId) (keyword : Token) : Token :=
  ⟨.identifier, "switch#" ++ toString id, keyword.offset⟩

def armTest (id : NodeId) (hidden keyword : Token) (pattern : Expr) : Expr :=
  .binary (.variable id hidden) ⟨.symbol .equalEqual, "==", keyword.offset⟩ pattern

/-- Builds the comparisons from the last arm outwards. -/
def armChain (hidden keyword : Token) : List (Expr × Stmt) → Option Stmt → Rule (Option Stmt)
  | [], chain => return chain
  | (pattern, action) :: rest, chain => do
    let id ← Rule.fresh
    armChain hidden keyword rest (some (.branch (armTest id hidden keyword pattern) action chain))

def switchStatement (keyword : Token) : Rule Stmt := do
  let _ ← Rule.expect (.symbol .leftParen) .switchOpen
  let subject ← rules.expression .lowest
  let _ ← Rule.expect (.symbol .rightParen) .switchClose
  let id ← Rule.fresh
  let hidden := hiddenName id keyword
  let _ ← Rule.expect (.symbol .leftBrace) .armsOpen
  let found ← Rule.iterate rules.armRound rules.bound ⟨[], none⟩
  let _ ← Rule.expect (.symbol .rightBrace) .armsClose
  let chain ← armChain hidden keyword found.arms found.default
  return .block (.var id hidden (some subject) :: chain.toList)

def statementRule : Rule Stmt := do
  let token ← Rule.peek
  match token.terminal? with
  | some (.keyword .forWord) =>
    Rule.advance
    rules.forStatement
  | some (.keyword .ifWord) =>
    Rule.advance
    rules.ifStatement
  | some (.symbol .leftBrace) =>
    Rule.advance
    .block <$> rules.block
  | some (.keyword .switchWord) =>
    Rule.advance
    rules.switchStatement token
  | some (.keyword .printWord) =>
    Rule.advance
    rules.printStatement
  | some (.keyword .returnWord) =>
    Rule.advance
    rules.returnStatement token
  | some (.keyword .whileWord) =>
    Rule.advance
    rules.whileStatement
  | _ => rules.expressionStatement

/-- The members of a class read so far, latest first. -/
structure Members where
  fields : List FieldDecl
  methods : List FunctionDecl

def field (explicit : Bool) : Rule FieldDecl := do
  let name ← Rule.expect .name (if explicit then .fieldName else .memberName)
  let initial ← rules.initializer
  let _ ← Rule.expect (.symbol .semicolon) .fieldEnd
  return .mk name initial

/-- The method named `init` is the initializer of its class. -/
def methodKind (name : Token) : FunctionKind :=
  if name.lexeme == "init" then .initializer else .method

/-- One member of a class, unless the class ends here. A name before a parenthesis is a method. -/
def memberRound (found : Members) : Rule (Rule.Round Members Members) := do
  if (← Rule.check (.symbol .rightBrace)) || (← Rule.atEnd) then
    return .finish found
  else
    let explicit ← Rule.accept (.keyword .varWord)
    if !explicit && (← Rule.check .name) && (← Rule.checkSecond (.symbol .leftParen)) then
      let name ← Rule.peek
      Rule.advance
      let method ← rules.functionBody (some name) (methodKind name)
      return .again { found with methods := method :: found.methods }
    else
      let field ← rules.field explicit
      return .again { found with fields := field :: found.fields }

def classDeclaration : Rule Stmt := do
  let name ← Rule.expect .name .className
  let id ← Rule.fresh
  let thisId ← Rule.fresh
  let _ ← Rule.expect (.symbol .leftBrace) .classOpen
  let found ← Rule.iterate rules.memberRound rules.bound ⟨[], []⟩
  let _ ← Rule.expect (.symbol .rightBrace) .classClose
  return .class id name thisId found.fields.reverse found.methods.reverse

def functionDeclaration : Rule Stmt := do
  let name ← Rule.expect .name .functionName
  let id ← Rule.fresh
  return .function id name (← rules.functionBody (some name) .function)

/-- A declaration or statement. The word `fun` declares only before a name. -/
def declarationOrStatement : Rule Stmt := do
  if ← Rule.accept (.keyword .varWord) then
    rules.varDeclaration
  else if ← Rule.accept (.keyword .classWord) then
    rules.classDeclaration
  else if (← Rule.check (.keyword .funWord)) && (← Rule.checkSecond .name) then
    Rule.advance
    rules.functionDeclaration
  else
    rules.statement

def declarationRule : Rule (Option Stmt) :=
  recover rules.declarationOrStatement

end Lox.Grammar.Rules
