import Lox.Machine.State

set_option autoImplicit false

/-! Running programs. Expressions and statements are run by recursion on the tree; only the rounds
of a loop and the calls of a function are bounded, and a program that exceeds the bound has no
result. An error leaves the machine as it was when the error arose, except that blocks and calls are
left on the way out. -/

namespace Lox

/-- Why there is no value: an error of the program, or more rounds and calls than were allowed. -/
inductive Stop where
  | error (error : RuntimeError)
  | exhausted
deriving Repr, Inhabited

abbrev Exec (α : Type) := EStateM Stop Machine α

inductive Flow where
  | normal
  | returned (value : Value)
deriving Repr, Inhabited

/-- What running refers to: the slots of nodes, how deep calls may nest, how many rounds a loop may
have, and how a function is called. -/
structure Context where
  bindings : Bindings
  maxDepth : Nat
  rounds : Nat
  call : FunctionId → List Value → Exec Value

namespace Exec

def fail {α : Type} (fault : RuntimeFault) (token : Token) : Exec α :=
  throw (.error (.faulted fault token))

def ofOperator (token : Token) : Except RuntimeFault Value → Exec Value
  | .ok value => return value
  | .error fault => fail fault token

def write (text : String) : Exec Unit := fun m =>
  let failure := m.output.failure? text
  let m := { m with output := m.output.accept text }
  match failure with
  | none => .ok () m
  | some failure => .error (.error (.outputFailed failure)) m

def print (value : Value) : Exec Unit := do
  write ((← get).text value ++ "\n")

def capture : Exec Chain := fun m =>
  .ok m.environment.current m

def close (decl : FunctionDecl) : Exec Value := fun m =>
  let (id, m) := m.addFunction ⟨decl, m.environment.current, none⟩
  .ok (.function id) m

/-- Runs in a new frame within a chain, and goes on in the current one afterwards, whatever the
outcome. -/
def within {α : Type} (chain : Chain) (body : Exec α) : Exec α := fun m =>
  let previous := m.environment.current
  match body { m with environment := m.environment.graft chain } with
  | .ok result m => .ok result { m with environment := m.environment.restore previous }
  | .error stop m => .error stop { m with environment := m.environment.restore previous }

def deeper {α : Type} (body : Exec α) : Exec α := fun m =>
  match body { m with depth := m.depth + 1 } with
  | .ok result m => .ok result { m with depth := m.depth - 1 }
  | .error stop m => .error stop { m with depth := m.depth - 1 }

/-- Repeats a body while a test holds, for at most so many rounds. -/
def repeatWhile (test : Exec Bool) (body : Exec Flow) : Nat → Exec Flow
  | 0 => throw .exhausted
  | rounds + 1 => fun m =>
    match test m with
    | .ok false m => .ok .normal m
    | .ok true m =>
      match body m with
      | .ok .normal m => repeatWhile test body rounds m
      | .ok (.returned value) m => .ok (.returned value) m
      | .error stop m => .error stop m
    | .error stop m => .error stop m

/-- A new variable: local if its node has a slot, and global if not. -/
def declare (ctx : Context) (id : NodeId) (name : Token) (value : Value) : Exec Unit := fun m =>
  match ctx.bindings.slot? id with
  | some slot => .ok () { m with environment := m.environment.define slot value }
  | none => .ok () { m with environment := m.environment.defineGlobal name.lexeme value }

def store (ctx : Context) (id : NodeId) (name : Token) (value : Value) : Exec Unit := fun m =>
  match ctx.bindings.slot? id with
  | some slot =>
    match m.environment.find? m.environment.current slot with
    | some frame => .ok () { m with environment := m.environment.setCell frame slot value }
    | none => fail (.undefinedVariable name.lexeme) name m
  | none =>
    if m.environment.globals.contains name.lexeme then
      .ok () { m with environment := m.environment.defineGlobal name.lexeme value }
    else fail (.undefinedVariable name.lexeme) name m

def lookUp (ctx : Context) (id : NodeId) (name : Token) : Exec Value := fun m =>
  let found := match ctx.bindings.slot? id with
    | some slot => m.environment.get? slot
    | none => m.environment.getGlobal? name.lexeme
  match found with
  | some value => .ok value m
  | none => fail (.undefinedVariable name.lexeme) name m

def getProperty (object : Value) (name : Token) : Exec Value := fun m =>
  match object with
  | .instance id =>
    match m.getProperty id name.lexeme with
    | (some value, m) => .ok value m
    | (none, m) => fail (.undefinedProperty name.lexeme) name m
  | _ => fail .propertyOfOther name m

def receiver (object : Value) (name : Token) : Exec InstanceId :=
  match object with
  | .instance id => return id
  | _ => fail .fieldOfOther name

def checkArity (expected found : Nat) (paren : Token) : Exec Unit :=
  if expected = found then return () else fail (.arity expected found) paren

def callFunction (ctx : Context) (id : FunctionId) (arguments : List Value) (paren : Token) :
    Exec Value := do
  if ctx.maxDepth ≤ (← get).depth then
    fail .tooDeep paren
  else
    ctx.call id arguments

def construct (ctx : Context) (id : ClassId) (arguments : List Value) (paren : Token) :
    Exec Value := do
  let object := (← get).classAt id
  let initial := (← get).initializer? object
  checkArity ((← get).arityOfClass object) arguments.length paren
  let fresh ← modifyGet (·.addInstance id)
  match initial, object.thisSlot with
  | some f, some slot =>
    let bound ← modifyGet (·.bindFunction f fresh slot)
    let _ ← callFunction ctx bound arguments paren
    return .instance fresh
  | _, _ => return .instance fresh

def invoke (ctx : Context) (callee : Value) (arguments : List Value) (paren : Token) :
    Exec Value := do
  match callee with
  | .function id =>
    checkArity ((← get).functionAt id).arity arguments.length paren
    callFunction ctx id arguments paren
  | .class id => construct ctx id arguments paren
  | _ => fail .notCallable paren

def addMethods (closure : Chain) (members : Table String Value) :
    List FunctionDecl → Exec (Table String Value)
  | [] => return members
  | method :: rest =>
    match method.name with
    | none => addMethods closure members rest
    | some name => do
      let id ← modifyGet (·.addFunction ⟨method, closure, none⟩)
      addMethods closure (members.insert name.lexeme (.function id)) rest

mutual

def expr (ctx : Context) : Expr → Exec Value
  | .literal value => return .ofLiteral value
  | .unary operator right => do
    let right ← expr ctx right
    ofOperator operator (right.applyUnary operator.kind)
  | .binary left operator right => do
    let left ← expr ctx left
    let right ← expr ctx right
    ofOperator operator (left.applyBinary operator.kind right)
  | .logical left operator right => do
    let left ← expr ctx left
    if left.decidesAlone operator.kind then return left else expr ctx right
  | .ternary condition thenBranch elseBranch => do
    let condition ← expr ctx condition
    if condition.isTruthy then expr ctx thenBranch else expr ctx elseBranch
  | .grouping inner => expr ctx inner
  | .variable id name => lookUp ctx id name
  | .assign id name value => do
    let value ← expr ctx value
    store ctx id name value
    return value
  | .call callee paren arguments => do
    let callee ← expr ctx callee
    let arguments ← exprs ctx arguments
    invoke ctx callee arguments paren
  | .function decl => close decl
  | .get object name => do
    let object ← expr ctx object
    getProperty object name
  | .set object name value => do
    let object ← expr ctx object
    let id ← receiver object name
    let value ← expr ctx value
    modify (·.setField id name.lexeme value)
    return value
  | .this id keyword => lookUp ctx id keyword

def exprs (ctx : Context) : List Expr → Exec (List Value)
  | [] => return []
  | e :: rest => do
    let value ← expr ctx e
    let values ← exprs ctx rest
    return value :: values

def stmt (ctx : Context) : Stmt → Exec Flow
  | .expression value => do
    let _ ← expr ctx value
    return .normal
  | .print value => do
    print (← expr ctx value)
    return .normal
  | .var id name none => do
    declare ctx id name .nil
    return .normal
  | .var id name (some initial) => do
    declare ctx id name (← expr ctx initial)
    return .normal
  | .block body => do
    within (← capture) (stmts ctx body)
  | .branch condition thenBranch none => do
    let condition ← expr ctx condition
    if condition.isTruthy then stmt ctx thenBranch else return .normal
  | .branch condition thenBranch (some elseBranch) => do
    let condition ← expr ctx condition
    if condition.isTruthy then stmt ctx thenBranch else stmt ctx elseBranch
  | .loop condition body =>
    repeatWhile (Value.isTruthy <$> expr ctx condition) (stmt ctx body) ctx.rounds
  | .function id name decl => do
    declare ctx id name (← close decl)
    return .normal
  | .ret _ none => return .returned .nil
  | .ret _ (some value) => do
    return .returned (← expr ctx value)
  | .class id name thisId fieldDecls methodDecls => do
    declare ctx id name .nil
    let members ← fields ctx Table.empty fieldDecls
    let members ← addMethods (← capture) members methodDecls
    let object := ⟨name.lexeme, members, ctx.bindings.slot? thisId⟩
    let made ← modifyGet (·.addClass object)
    store ctx id name (.class made)
    return .normal

def stmts (ctx : Context) : List Stmt → Exec Flow
  | [] => return .normal
  | s :: rest => do
    match ← stmt ctx s with
    | .normal => stmts ctx rest
    | .returned value => return .returned value

def fields (ctx : Context) (members : Table String Value) :
    List FieldDecl → Exec (Table String Value)
  | [] => return members
  | .mk name none :: rest => fields ctx (members.insert name.lexeme .nil) rest
  | .mk name (some initial) :: rest => do
    let value ← expr ctx initial
    fields ctx (members.insert name.lexeme value) rest

end

/-- Gives parameters their values. A parameter without a slot is not bound. -/
def bindParams (bindings : Bindings) (environment : Environment) :
    List Param → List Value → Environment
  | param :: params, value :: values =>
    match bindings.slot? param.id with
    | some slot => bindParams bindings (environment.define slot value) params values
    | none => bindParams bindings environment params values
  | _, _ => environment

/-- Runs the body of a function in a new frame. An initializer yields its instance. -/
def body (ctx : Context) (object : FunctionObject) (arguments : List Value) : Exec Value := do
  let flow ← deeper <| within object.closure do
    modify fun m =>
      { m with environment := bindParams ctx.bindings m.environment object.decl.params arguments }
    stmts ctx object.decl.body
  match object.isInitializer, object.receiver, flow with
  | true, some receiver, _ => return .instance receiver
  | _, _, .returned value => return value
  | _, _, .normal => return .nil

/-- Calls a function, with at most so many calls nested in it and rounds of each of its loops. -/
def call (bindings : Bindings) (maxDepth : Nat) : Nat → FunctionId → List Value → Exec Value
  | 0, _, _ => throw .exhausted
  | bound + 1, id, arguments => do
    let object := (← get).functionAt id
    body ⟨bindings, maxDepth, bound, call bindings maxDepth bound⟩ object arguments

def context (bindings : Bindings) (maxDepth bound : Nat) : Context :=
  ⟨bindings, maxDepth, bound, call bindings maxDepth bound⟩

def flush : Exec Unit := fun m =>
  match m.output.flushFailure? with
  | none => .ok () m
  | some failure => .error (.error (.outputFailed failure)) m

/-- Runs a program up to its first error and flushes its output. A failure to flush takes the place
of the error. -/
def program (ctx : Context) (statements : List Stmt) : Exec Unit := fun m =>
  match stmts ctx statements m with
  | .ok _ m => flush m
  | .error .exhausted m => .error .exhausted m
  | .error (.error e) m =>
    match flush m with
    | .ok _ m => .error (.error e) m
    | .error stop m => .error stop m

end Exec
end Lox
