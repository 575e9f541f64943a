import Lox.Grammar.Program

set_option autoImplicit false

/-! Reading a row of tokens by position. A walker stands at a position of the row and looks tokens up
by index; it comes to grief if there is none. It also keeps a journal of what it did: which tokens it
passed, which errors it met, where declarations begin and end, and which tokens it left out to recover
from an error. -/

namespace Lox.Grammar

/-- What a walker did: it passed the token at a position; it met an error; it began a declaration; it
caught an error at one position and went on at another; it came to the end of a declaration, with
success or not, and knows where that began. -/
inductive Event where
  | passed (position : Nat)
  | raised (error : SyntaxError)
  | opened (position : Nat)
  | recovered (error : SyntaxError) (caught resumed : Nat)
  | closed (start finish : Nat)

/-- The row, the position of the next token, the next free node number, the errors from which reading
has recovered and the journal, both latest first. -/
structure Walker where
  row : List Token
  current : Nat
  nextId : NodeId
  recorded : List SyntaxError
  journal : List Event

/-- A row that does not end with an end of input gets one, where its last token ends. -/
def closedRow (tokens : List Token) : List Token :=
  if tokens.getLast?.any (·.isEnd) then tokens
  else tokens ++ [Token.atEnd (tokens.getLast?.elim 0 (·.offset))]

def Walker.new (tokens : List Token) (firstId : NodeId) : Walker :=
  ⟨closedRow tokens, 0, firstId, [], []⟩

def Walker.note (w : Walker) (event : Event) : Walker :=
  { w with journal := event :: w.journal }

/-- Why a walker stopped: an error at some token, a nesting deeper than was allowed for, or a look at a
position that is not in the row. -/
inductive Crash where
  | error (error : SyntaxError)
  | exhausted
  | outside

abbrev Walk (α : Type) := EStateM Crash Walker α

namespace Walk

def tokenAt (position : Nat) : Walk Token := fun w =>
  match w.row[position]? with
  | some token => .ok token w
  | none => .error .outside w

def peek : Walk Token := fun w =>
  tokenAt w.current w

def previous : Walk Token := fun w =>
  tokenAt (w.current - 1) w

def atEnd : Walk Bool := do
  return (← peek).isEnd

def raise {α : Type} (e : SyntaxError) : Walk α := fun w =>
  .error (.error e) (w.note (.raised e))

def fail {α : Type} (fault : SyntaxFault) : Walk α := do
  raise ⟨fault, ← peek⟩

def failAt {α : Type} (fault : SyntaxFault) (token : Token) : Walk α :=
  raise ⟨fault, token⟩

def pass : Walk Unit := fun w =>
  .ok () { w.note (.passed w.current) with current := w.current + 1 }

/-- Passes one token, but never the end of the input, and yields the token that was passed last. -/
def step : Walk Token := do
  if ← atEnd then
    previous
  else
    pass
    previous

def advance : Walk Unit := do
  let _ ← step

def check (terminal : Terminal) : Walk Bool := do
  if ← atEnd then
    return false
  else
    return (← peek).terminal? == some terminal

/-- Asks for the token after the next one, if that is not the end. -/
def checkSecond (terminal : Terminal) : Walk Bool := do
  if ← atEnd then
    return false
  else fun w =>
    .ok (w.row[w.current + 1]?.bind Token.terminal? == some terminal) w

def accept (terminal : Terminal) : Walk Bool := do
  if ← check terminal then
    advance
    return true
  else
    return false

def expect (terminal : Terminal) (fault : SyntaxFault) : Walk Token := do
  if ← check terminal then
    step
  else
    fail fault

def fresh : Walk NodeId := fun w =>
  .ok w.nextId { w with nextId := w.nextId + 1 }

/-- Repeats a walk until a round finishes. -/
def iterate {σ α : Type} (round : σ → Walk (Rule.Round σ α)) : Nat → σ → Walk α
  | 0, _ => throw .exhausted
  | bound + 1, state => do
    match ← round state with
    | .again state => iterate round bound state
    | .finish result => return result

/-- Leaves out one token. -/
def skip : Walk Unit := fun w =>
  .ok () { w with current := w.current + 1 }

/-- Leaves out tokens up to one that follows a semicolon or begins a statement. -/
def skipOn : Nat → Walk Unit
  | 0 => throw .exhausted
  | bound + 1 => do
    if ← atEnd then
      return ()
    else if (← previous).terminal? == some (.symbol .semicolon) then
      return ()
    else if (← peek).terminal?.any beginsStatement then
      return ()
    else
      skip
      skipOn bound

/-- Leaves out the next token, whatever it is, and then as many more as it takes to stand at the
beginning of a statement. -/
def synchronize : Walk Unit := do
  if ← atEnd then
    return ()
  else
    skip
    skipOn (← get).row.length

/-- Records an error that is not fatal and goes on at the next statement. -/
def recover {α : Type} (walk : Walk α) : Walk (Option α) := fun w =>
  match walk (w.note (.opened w.current)) with
  | .ok result after => .ok (some result) (after.note (.closed w.current after.current))
  | .error (.error e) after =>
    if e.fault.isFatal then .error (.error e) after
    else
      match synchronize { after with recorded := e :: after.recorded } with
      | .ok _ resumed =>
        .ok none <| resumed.note (.recovered e after.current resumed.current)
          |>.note (.closed w.current resumed.current)
      | .error crash resumed => .error crash resumed
  | .error crash after => .error crash after

end Walk

/-! ## The grammar over positions

Each rule is the rule of the same name, followed by a walker; only the way to look at a token differs. -/

/-- The walks that refer to each other, and a bound on how often one of their parts is repeated. -/
structure Walks where
  bound : Nat
  expression : Level → Walk Expr
  statement : Walk Stmt
  declaration : Walk (Option Stmt)

namespace Walks

variable (walks : Walks)

def onward (found : List Stmt) : Option Stmt → Walk (Rule.Round (List Stmt) (List Stmt))
  | some stmt => pure (.again (stmt :: found))
  | none => pure (.again found)

def blockRound (found : List Stmt) : Walk (Rule.Round (List Stmt) (List Stmt)) := do
  if (← Walk.check (.symbol .rightBrace)) || (← Walk.atEnd) then
    return .finish found.reverse
  else
    walks.declaration >>= onward found

def block : Walk (List Stmt) := do
  let body ← Walk.iterate walks.blockRound walks.bound []
  let _ ← Walk.expect (.symbol .rightBrace) .blockClose
  return body

def parameterRound (found : List Param) : Walk (Rule.Round (List Param) (List Param)) := do
  if maxArity ≤ found.length then
    Walk.fail .tooManyParameters
  else
    let name ← Walk.expect .name .parameterName
    let id ← Walk.fresh
    let found := ⟨id, name⟩ :: found
    if ← Walk.accept (.symbol .comma) then
      return .again found
    else
      return .finish found.reverse

def parameters : Walk (List Param) := do
  if ← Walk.check (.symbol .rightParen) then
    return []
  else
    Walk.iterate parameterRound walks.bound []

def functionBody (name : Option Token) (kind : FunctionKind) : Walk FunctionDecl := do
  let ofMethod := kind != .function
  let _ ← Walk.expect (.symbol .leftParen) (.parametersOpen ofMethod)
  let params ← walks.parameters
  let _ ← Walk.expect (.symbol .rightParen) .parametersClose
  let _ ← Walk.expect (.symbol .leftBrace) (.bodyOpen ofMethod)
  let body ← walks.block
  return .mk name kind params body

def argumentRound (found : List Expr) : Walk (Rule.Round (List Expr) (List Expr)) := do
  if maxArity ≤ found.length then
    Walk.fail .tooManyArguments
  else
    let argument ← walks.expression .lowest
    if ← Walk.accept (.symbol .comma) then
      return .again (argument :: found)
    else
      return .finish (argument :: found).reverse

def arguments : Walk (List Expr) := do
  if ← Walk.check (.symbol .rightParen) then
    return []
  else
    Walk.iterate walks.argumentRound walks.bound []

def assignment (equals : Token) (target value : Expr) : Walk Expr :=
  match target with
  | .variable id name => return .assign id name value
  | .get object name => return .set object name value
  | _ => Walk.failAt .invalidTarget equals

def operand : Walk Expr := do
  let token ← Walk.peek
  match token.kind with
  | .symbol .leftParen =>
    Walk.advance
    let inner ← walks.expression .lowest
    let _ ← Walk.expect (.symbol .rightParen) .groupClose
    return .grouping inner
  | .symbol .bang | .symbol .minus =>
    Walk.advance
    return .unary token (← walks.expression .unary)
  | .keyword .falseWord =>
    Walk.advance
    return .literal (.bool false)
  | .keyword .trueWord =>
    Walk.advance
    return .literal (.bool true)
  | .keyword .nilWord =>
    Walk.advance
    return .literal .nil
  | .number value =>
    Walk.advance
    return .literal (.number value)
  | .string contents =>
    Walk.advance
    return .literal (.string contents)
  | .keyword .funWord =>
    Walk.advance
    return .function (← walks.functionBody none .function)
  | .identifier =>
    Walk.advance
    return .variable (← Walk.fresh) token
  | .keyword .thisWord =>
    Walk.advance
    return .this (← Walk.fresh) token
  | _ => Walk.failAt .expression token

def extend (left : Expr) (operator : Token) (level : Level) : Walk Expr := do
  let right := level.ofRightOperand operator.kind
  match operator.kind with
  | .symbol .leftParen =>
    let arguments ← walks.arguments
    let _ ← Walk.expect (.symbol .rightParen) .argumentsClose
    return .call left operator arguments
  | .symbol .dot =>
    return .get left (← Walk.expect .name .propertyName)
  | .symbol .question =>
    let thenBranch ← walks.expression .lowest
    let _ ← Walk.expect (.symbol .colon) .ternaryColon
    return .ternary left thenBranch (← walks.expression right)
  | .symbol .equal =>
    let value ← walks.expression right
    assignment operator left value
  | .keyword .andWord | .keyword .orWord =>
    return .logical left operator (← walks.expression right)
  | _ =>
    return .binary left operator (← walks.expression right)

def operatorRound (min : Level) (left : Expr) : Walk (Rule.Round Expr Expr) := do
  let operator ← Walk.peek
  match Level.ofKind? operator.kind with
  | none => return .finish left
  | some level =>
    if level.rank ≤ min.rank then
      return .finish left
    else
      Walk.advance
      return .again (← walks.extend left operator level)

def expressionAt (min : Level) : Walk Expr := do
  let left ← walks.operand
  Walk.iterate (walks.operatorRound min) walks.bound left

def expressionStatement : Walk Stmt := do
  let value ← walks.expression .lowest
  let _ ← Walk.expect (.symbol .semicolon) .expressionEnd
  return .expression value

def printStatement : Walk Stmt := do
  let value ← walks.expression .lowest
  let _ ← Walk.expect (.symbol .semicolon) .printEnd
  return .print value

def returnStatement (keyword : Token) : Walk Stmt := do
  let value ← do
    if ← Walk.check (.symbol .semicolon) then pure none
    else some <$> walks.expression .lowest
  let _ ← Walk.expect (.symbol .semicolon) .returnEnd
  return .ret keyword value

def whileStatement : Walk Stmt := do
  let _ ← Walk.expect (.symbol .leftParen) .whileOpen
  let condition ← walks.expression .lowest
  let _ ← Walk.expect (.symbol .rightParen) .whileClose
  return .loop condition (← walks.statement).scoped

def ifStatement : Walk Stmt := do
  let _ ← Walk.expect (.symbol .leftParen) .ifOpen
  let condition ← walks.expression .lowest
  let _ ← Walk.expect (.symbol .rightParen) .ifClose
  let thenBranch ← walks.statement
  if ← Walk.accept (.keyword .elseWord) then
    return .branch condition thenBranch.scoped (some (← walks.statement).scoped)
  else
    return .branch condition thenBranch.scoped none

def initializer : Walk (Option Expr) := do
  if ← Walk.accept (.symbol .equal) then
    some <$> walks.expression .lowest
  else
    return none

def varDeclaration : Walk Stmt := do
  let name ← Walk.expect .name .variableName
  let id ← Walk.fresh
  let initial ← walks.initializer
  let _ ← Walk.expect (.symbol .semicolon) .variableEnd
  return .var id name initial

def forInitializer : Walk (Option Stmt) := do
  if ← Walk.accept (.symbol .semicolon) then
    return none
  else if ← Walk.accept (.keyword .varWord) then
    some <$> walks.varDeclaration
  else
    some <$> walks.expressionStatement

def forStatement : Walk Stmt := do
  let _ ← Walk.expect (.symbol .leftParen) .forOpen
  let first ← walks.forInitializer
  let condition ← do
    if ← Walk.check (.symbol .semicolon) then pure (.literal (.bool true))
    else walks.expression .lowest
  let _ ← Walk.expect (.symbol .semicolon) .loopConditionEnd
  let last ← do
    if ← Walk.check (.symbol .rightParen) then pure none
    else some <$> walks.expression .lowest
  let _ ← Walk.expect (.symbol .rightParen) .forClose
  return Rules.forLoop first condition last (← walks.statement)

def armRound (found : Rules.Arms) : Walk (Rule.Round Rules.Arms Rules.Arms) := do
  if (← Walk.check (.symbol .rightBrace)) || (← Walk.atEnd) then
    return .finish found
  else
    let start ← Walk.peek
    let pattern ← walks.expression .lowest
    let _ ← Walk.expect (.symbol .equalGreater) .armArrow
    let action ← walks.statement
    if Rules.isDefaultPattern pattern then
      if found.default.isSome then
        Walk.failAt .duplicateDefault start
      else
        return .again { found with default := some action }
    else
      return .again { found with arms := (pattern, action) :: found.arms }

def armChain (hidden keyword : Token) : List (Expr × Stmt) → Option Stmt → Walk (Option Stmt)
  | [], chain => return chain
  | (pattern, action) :: rest, chain => do
    let id ← Walk.fresh
    armChain hidden keyword rest
      (some (.branch (Rules.armTest id hidden keyword pattern) action chain))

def switchStatement (keyword : Token) : Walk Stmt := do
  let _ ← Walk.expect (.symbol .leftParen) .switchOpen
  let subject ← walks.expression .lowest
  let _ ← Walk.expect (.symbol .rightParen) .switchClose
  let id ← Walk.fresh
  let hidden := Rules.hiddenName id keyword
  let _ ← Walk.expect (.symbol .leftBrace) .armsOpen
  let found ← Walk.iterate walks.armRound walks.bound ⟨[], none⟩
  let _ ← Walk.expect (.symbol .rightBrace) .armsClose
  let chain ← armChain hidden keyword found.arms found.default
  return .block (.var id hidden (some subject) :: chain.toList)

def statementRule : Walk Stmt := do
  let token ← Walk.peek
  match token.terminal? with
  | some (.keyword .forWord) =>
    Walk.advance
    walks.forStatement
  | some (.keyword .ifWord) =>
    Walk.advance
    walks.ifStatement
  | some (.symbol .leftBrace) =>
    Walk.advance
    .block <$> walks.block
  | some (.keyword .switchWord) =>
    Walk.advance
    walks.switchStatement token
  | some (.keyword .printWord) =>
    Walk.advance
    walks.printStatement
  | some (.keyword .returnWord) =>
    Walk.advance
    walks.returnStatement token
  | some (.keyword .whileWord) =>
    Walk.advance
    walks.whileStatement
  | _ => walks.expressionStatement

def field (explicit : Bool) : Walk FieldDecl := do
  let name ← Walk.expect .name (if explicit then .fieldName else .memberName)
  let initial ← walks.initializer
  let _ ← Walk.expect (.symbol .semicolon) .fieldEnd
  return .mk name initial

def memberRound (found : Rules.Members) : Walk (Rule.Round Rules.Members Rules.Members) := do
  if (← Walk.check (.symbol .rightBrace)) || (← Walk.atEnd) then
    return .finish found
  else
    let explicit ← Walk.accept (.keyword .varWord)
    if !explicit && (← Walk.check .name) && (← Walk.checkSecond (.symbol .leftParen)) then
      let name ← Walk.peek
      Walk.advance
      let method ← walks.functionBody (some name) (Rules.methodKind name)
      return .again { found with methods := method :: found.methods }
    else
      let field ← walks.field explicit
      return .again { found with fields := field :: found.fields }

def classDeclaration : Walk Stmt := do
  let name ← Walk.expect .name .className
  let id ← Walk.fresh
  let thisId ← Walk.fresh
  let _ ← Walk.expect (.symbol .leftBrace) .classOpen
  let found ← Walk.iterate walks.memberRound walks.bound ⟨[], []⟩
  let _ ← Walk.expect (.symbol .rightBrace) .classClose
  return .class id name thisId found.fields.reverse found.methods.reverse

def functionDeclaration : Walk Stmt := do
  let name ← Walk.expect .name .functionName
  let id ← Walk.fresh
  return .function id name (← walks.functionBody (some name) .function)

def declarationOrStatement : Walk Stmt := do
  if ← Walk.accept (.keyword .varWord) then
    walks.varDeclaration
  else if ← Walk.accept (.keyword .classWord) then
    walks.classDeclaration
  else if (← Walk.check (.keyword .funWord)) && (← Walk.checkSecond .name) then
    Walk.advance
    walks.functionDeclaration
  else
    walks.statement

def declarationRule : Walk (Option Stmt) :=
  Walk.recover walks.declarationOrStatement

end Walks

/-- The walks that refer to each other, to a given depth. -/
def walksAt : Nat → Walks
  | 0 => ⟨0, fun _ => throw .exhausted, throw .exhausted, throw .exhausted⟩
  | depth + 1 =>
    let inner := walksAt depth
    ⟨depth + 1, inner.expressionAt, inner.statementRule, inner.declarationRule⟩

/-- How many tokens stand before the first end of input. -/
def endOf (row : List Token) : Nat :=
  row.findIdx (·.isEnd)

def walkRound (depth : Nat) (found : List Stmt) : Walk (Rule.Round (List Stmt) (List Stmt)) := do
  if ← Walk.atEnd then
    return .finish found.reverse
  else
    (walksAt depth).declaration >>= Walks.onward found

/-- Reads a program, declaration by declaration, up to the end of the input. -/
def walkProgram : Walk (List Stmt) := do
  let depth := depthFor (endOf (← get).row)
  Walk.iterate (walkRound depth) depth []

/-- Reads a row of tokens by position, from its first token on. -/
def walk (tokens : List Token) (firstId : NodeId) : EStateM.Result Crash Walker (List Stmt) :=
  walkProgram (Walker.new tokens firstId)

end Lox.Grammar
