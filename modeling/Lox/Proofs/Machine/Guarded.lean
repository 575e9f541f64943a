import Lox.Session

set_option autoImplicit false

/-! A guarded interpreter. It goes through programs like the interpreter, with one difference: if a node
has a slot and the chain of the code that runs does not hold the slot at the moment at which the node
is evaluated, it stops with an alarm of its own, where the interpreter reports an undefined variable.
If both always end alike, whatever the alarm is, then that moment never comes. -/

namespace Lox.Guarded

open Exec

/-- What is sounded for a node whose slot is missing. -/
abbrev Alarm := NodeId → Token → Stop

variable (alarm : Alarm)

/-- Changes a variable that exists. Only one without a slot can be undefined. -/
def store (ctx : Context) (id : NodeId) (name : Token) (value : Value) : Exec Unit := fun m =>
  match ctx.bindings.slot? id with
  | some slot =>
    match m.environment.find? m.environment.current slot with
    | some frame => .ok () { m with environment := m.environment.setCell frame slot value }
    | none => .error (alarm id name) m
  | none =>
    if m.environment.globals.contains name.lexeme then
      .ok () { m with environment := m.environment.defineGlobal name.lexeme value }
    else fail (.undefinedVariable name.lexeme) name m

/-- What a variable holds. Only one without a slot can be undefined. -/
def lookUp (ctx : Context) (id : NodeId) (name : Token) : Exec Value := fun m =>
  match ctx.bindings.slot? id with
  | some slot =>
    match m.environment.find? m.environment.current slot with
    | some _ => Exec.lookUp ctx id name m
    | none => .error (alarm id name) m
  | none =>
    match m.environment.getGlobal? name.lexeme with
    | some value => .ok value m
    | none => fail (.undefinedVariable name.lexeme) name m

mutual

def expr (ctx : Context) : Expr → Exec Value
  | .literal value => return .ofLiteral value
  | .unary operator right => do
    let right ← expr ctx right
    ofOperator operator (right.applyUnary operator.kind)
  | .binary left operator right => do
    let left ← expr ctx left
    let right ← expr ctx right
    ofOperator operator (left.applyBinary operator.kind right)
  | .logical left operator right => do
    let left ← expr ctx left
    if left.decidesAlone operator.kind then return left else expr ctx right
  | .ternary condition thenBranch elseBranch => do
    let condition ← expr ctx condition
    if condition.isTruthy then expr ctx thenBranch else expr ctx elseBranch
  | .grouping inner => expr ctx inner
  | .variable id name => lookUp alarm ctx id name
  | .assign id name value => do
    let value ← expr ctx value
    store alarm ctx id name value
    return value
  | .call callee paren arguments => do
    let callee ← expr ctx callee
    let arguments ← exprs ctx arguments
    invoke ctx callee arguments paren
  | .function decl => close decl
  | .get object name => do
    let object ← expr ctx object
    getProperty object name
  | .set object name value => do
    let object ← expr ctx object
    let id ← receiver object name
    let value ← expr ctx value
    modify (·.setField id name.lexeme value)
    return value
  | .this id keyword => lookUp alarm ctx id keyword

def exprs (ctx : Context) : List Expr → Exec (List Value)
  | [] => return []
  | e :: rest => do
    let value ← expr ctx e
    let values ← exprs ctx rest
    return value :: values

def stmt (ctx : Context) : Stmt → Exec Flow
  | .expression value => do
    let _ ← expr ctx value
    return .normal
  | .print value => do
    print (← expr ctx value)
    return .normal
  | .var id name none => do
    declare ctx id name .nil
    return .normal
  | .var id name (some initial) => do
    declare ctx id name (← expr ctx initial)
    return .normal
  | .block body => do
    within (← capture) (stmts ctx body)
  | .branch condition thenBranch none => do
    let condition ← expr ctx condition
    if condition.isTruthy then stmt ctx thenBranch else return .normal
  | .branch condition thenBranch (some elseBranch) => do
    let condition ← expr ctx condition
    if condition.isTruthy then stmt ctx thenBranch else stmt ctx elseBranch
  | .loop condition body =>
    repeatWhile (Value.isTruthy <$> expr ctx condition) (stmt ctx body) ctx.rounds
  | .function id name decl => do
    declare ctx id name (← close decl)
    return .normal
  | .ret _ none => return .returned .nil
  | .ret _ (some value) => do
    return .returned (← expr ctx value)
  | .class id name thisId fieldDecls methodDecls => do
    declare ctx id name .nil
    let members ← fields ctx Table.empty fieldDecls
    let members ← addMethods (← capture) members methodDecls
    let object := ⟨name.lexeme, members, ctx.bindings.slot? thisId⟩
    let made ← modifyGet (·.addClass object)
    store alarm ctx id name (.class made)
    return .normal

def stmts (ctx : Context) : List Stmt → Exec Flow
  | [] => return .normal
  | s :: rest => do
    match ← stmt ctx s with
    | .normal => stmts ctx rest
    | .returned value => return .returned value

def fields (ctx : Context) (members : Table String Value) :
    List FieldDecl → Exec (Table String Value)
  | [] => return members
  | .mk name none :: rest => fields ctx (members.insert name.lexeme .nil) rest
  | .mk name (some initial) :: rest => do
    let value ← expr ctx initial
    fields ctx (members.insert name.lexeme value) rest

end

def body (ctx : Context) (object : FunctionObject) (arguments : List Value) : Exec Value := do
  let flow ← deeper <| within object.closure do
    modify fun m =>
      { m with environment := bindParams ctx.bindings m.environment object.decl.params arguments }
    stmts alarm ctx object.decl.body
  match object.isInitializer, object.receiver, flow with
  | true, some receiver, _ => return .instance receiver
  | _, _, .returned value => return value
  | _, _, .normal => return .nil

def call (bindings : Bindings) (maxDepth : Nat) : Nat → FunctionId → List Value → Exec Value
  | 0, _, _ => throw .exhausted
  | bound + 1, id, arguments => do
    let object := (← get).functionAt id
    body alarm ⟨bindings, maxDepth, bound, call bindings maxDepth bound⟩ object arguments

def context (bindings : Bindings) (maxDepth bound : Nat) : Context :=
  ⟨bindings, maxDepth, bound, call alarm bindings maxDepth bound⟩

def program (ctx : Context) (statements : List Stmt) : Exec Unit := fun m =>
  match stmts alarm ctx statements m with
  | .ok _ m => flush m
  | .error .exhausted m => .error .exhausted m
  | .error (.error e) m =>
    match flush m with
    | .ok _ m => .error (.error e) m
    | .error stop m => .error stop m

end Lox.Guarded
