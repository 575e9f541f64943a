import Lox.Machine.Evaluate

set_option autoImplicit false

/-! A watched interpreter. It goes through programs like the interpreter and knows in addition the instance
that the method was read from whose body it is in. It sounds an alarm if a method would get another
receiver than it has, if `this` in the body of a method is not its receiver, and if an initializer yields
something else. A class that gives a field a method as its first value stops it; that a method is kept
in this way is the one thing by which it can get another receiver. -/

namespace Lox

namespace Value

def isInstance (id : InstanceId) : Value → Bool
  | .instance other => id == other
  | _ => false

end Value

namespace FunctionObject

def isMethod (object : FunctionObject) : Bool :=
  object.decl.kind != .function

/-- The instance that `this` means in the body of a method that has been read. -/
def self? (object : FunctionObject) : Option InstanceId :=
  if object.isMethod then object.receiver else none

end FunctionObject

namespace Machine

/-- Whether a value is known not to be a method. -/
def isPlain (m : Machine) : Value → Bool
  | .function id => id < m.functions.size && !(m.functionAt id).isMethod
  | _ => true

/-- Whether a function is a method that has a receiver. -/
def isTaken (m : Machine) (id : FunctionId) : Bool :=
  (m.functionAt id).self?.isSome

/-- Whether a value, if it is a method, has been read from a given object. -/
def isReadFrom (m : Machine) (object : Value) : Value → Bool
  | .function id =>
    !(m.functionAt id).isMethod || (m.functionAt id).receiver.any fun receiver =>
      object.isInstance receiver
  | _ => true

/-- The function that a property stands for, if it is a member of the class. -/
def shared? (m : Machine) (object : Value) (name : String) : Option FunctionId :=
  match object with
  | .instance id =>
    match (m.instanceAt id).fields.get? name,
        (m.classAt (m.instanceAt id).owner).members.get? name with
    | none, some (.function f) => some f
    | _, _ => none
  | _ => none

end Machine

namespace Watched

open Exec

/-- What is sounded for a field whose first value is a method, and for a receiver that is lost. -/
structure Alarms where
  kept : Token → Stop
  lost : Stop

variable (alarms : Alarms)

/-- Goes on with a value that has what it needs. -/
def demand (holds : Machine → Value → Bool) (value : Value) : Exec Value := fun m =>
  if holds m value then .ok value m else .error alarms.lost m

/-- A method that is read has no receiver before, and its object is its receiver then. -/
def getProperty (object : Value) (name : Token) : Exec Value := fun m =>
  match m.shared? object name.lexeme with
  | none => Exec.getProperty object name m
  | some f =>
    if m.isTaken f then .error alarms.lost m
    else (Exec.getProperty object name >>= demand alarms (·.isReadFrom object)) m

/-- An initializer has no receiver before it is bound to a new instance. -/
def construct (ctx : Context) (id : ClassId) (arguments : List Value) (paren : Token) :
    Exec Value := fun m =>
  if (m.initializer? (m.classAt id)).any m.isTaken then .error alarms.lost m
  else Exec.construct ctx id arguments paren m

def invoke (ctx : Context) (callee : Value) (arguments : List Value) (paren : Token) :
    Exec Value :=
  match callee with
  | .class id => construct alarms ctx id arguments paren
  | _ => Exec.invoke ctx callee arguments paren

/-- What `this` means. In the body of a method it has to be the receiver. -/
def findReceiver (ctx : Context) (self : Option InstanceId) (id : NodeId) (keyword : Token) :
    Exec Value :=
  lookUp ctx id keyword >>= demand alarms fun _ value => self.all value.isInstance

mutual

def expr (ctx : Context) (self : Option InstanceId) : Expr → Exec Value
  | .literal value => return .ofLiteral value
  | .unary operator right => do
    let right ← expr ctx self right
    ofOperator operator (right.applyUnary operator.kind)
  | .binary left operator right => do
    let left ← expr ctx self left
    let right ← expr ctx self right
    ofOperator operator (left.applyBinary operator.kind right)
  | .logical left operator right => do
    let left ← expr ctx self left
    if left.decidesAlone operator.kind then return left else expr ctx self right
  | .ternary condition thenBranch elseBranch => do
    let condition ← expr ctx self condition
    if condition.isTruthy then expr ctx self thenBranch else expr ctx self elseBranch
  | .grouping inner => expr ctx self inner
  | .variable id name => lookUp ctx id name
  | .assign id name value => do
    let value ← expr ctx self value
    store ctx id name value
    return value
  | .call callee paren arguments => do
    let callee ← expr ctx self callee
    let arguments ← exprs ctx self arguments
    invoke alarms ctx callee arguments paren
  | .function decl => close decl
  | .get object name => do
    let object ← expr ctx self object
    getProperty alarms object name
  | .set object name value => do
    let object ← expr ctx self object
    let id ← receiver object name
    let value ← expr ctx self value
    modify (·.setField id name.lexeme value)
    return value
  | .this id keyword => findReceiver alarms ctx self id keyword

def exprs (ctx : Context) (self : Option InstanceId) : List Expr → Exec (List Value)
  | [] => return []
  | e :: rest => do
    let value ← expr ctx self e
    let values ← exprs ctx self rest
    return value :: values

def stmt (ctx : Context) (self : Option InstanceId) : Stmt → Exec Flow
  | .expression value => do
    let _ ← expr ctx self value
    return .normal
  | .print value => do
    print (← expr ctx self value)
    return .normal
  | .var id name none => do
    declare ctx id name .nil
    return .normal
  | .var id name (some initial) => do
    declare ctx id name (← expr ctx self initial)
    return .normal
  | .block body => do
    within (← capture) (stmts ctx self body)
  | .branch condition thenBranch none => do
    let condition ← expr ctx self condition
    if condition.isTruthy then stmt ctx self thenBranch else return .normal
  | .branch condition thenBranch (some elseBranch) => do
    let condition ← expr ctx self condition
    if condition.isTruthy then stmt ctx self thenBranch else stmt ctx self elseBranch
  | .loop condition body =>
    repeatWhile (Value.isTruthy <$> expr ctx self condition) (stmt ctx self body) ctx.rounds
  | .function id name decl => do
    declare ctx id name (← close decl)
    return .normal
  | .ret _ none => return .returned .nil
  | .ret _ (some value) => do
    return .returned (← expr ctx self value)
  | .class id name thisId fieldDecls methodDecls => do
    declare ctx id name .nil
    let members ← fields ctx Table.empty fieldDecls
    let members ← addMethods (← capture) members methodDecls
    let object := ⟨name.lexeme, members, ctx.bindings.slot? thisId⟩
    let made ← modifyGet (·.addClass object)
    store ctx id name (.class made)
    return .normal

def stmts (ctx : Context) (self : Option InstanceId) : List Stmt → Exec Flow
  | [] => return .normal
  | s :: rest => do
    match ← stmt ctx self s with
    | .normal => stmts ctx self rest
    | .returned value => return .returned value

def fields (ctx : Context) (members : Table String Value) :
    List FieldDecl → Exec (Table String Value)
  | [] => return members
  | .mk name none :: rest => fields ctx (members.insert name.lexeme .nil) rest
  | .mk name (some initial) :: rest => do
    let value ← expr ctx none initial
    if (← get).isPlain value then fields ctx (members.insert name.lexeme value) rest
    else throw (alarms.kept name)

end

def body (ctx : Context) (object : FunctionObject) (arguments : List Value) : Exec Value := do
  let flow ← deeper <| within object.closure do
    modify fun m =>
      { m with environment := bindParams ctx.bindings m.environment object.decl.params arguments }
    stmts alarms ctx object.self? object.decl.body
  match object.isInitializer, object.receiver, flow with
  | true, some receiver, _ => return .instance receiver
  | _, _, .returned value => return value
  | _, _, .normal => return .nil

/-- An initializer that has been read has to yield its receiver. -/
def call (bindings : Bindings) (maxDepth : Nat) : Nat → FunctionId → List Value → Exec Value
  | 0, _, _ => throw .exhausted
  | bound + 1, id, arguments => do
    let object := (← get).functionAt id
    body alarms ⟨bindings, maxDepth, bound, call bindings maxDepth bound⟩ object arguments >>=
      demand alarms fun _ value => !object.isInitializer || object.receiver.all value.isInstance

def context (bindings : Bindings) (maxDepth bound : Nat) : Context :=
  ⟨bindings, maxDepth, bound, call alarms bindings maxDepth bound⟩

end Watched
end Lox
