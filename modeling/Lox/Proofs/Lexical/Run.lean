import Lox.Proofs.Lexical.Memory

set_option autoImplicit false

/-! Running programs without slots. An expression is run with what is in sight at its place; a statement
yields what is in sight after it. A name that is not in sight is a global variable. -/

namespace Lox.Lexical

abbrev Run (α : Type) := EStateM Stop Memory α

/-- What running refers to besides names. -/
structure Context where
  maxDepth : Nat
  rounds : Nat
  call : FunctionId → List Value → Run Value

namespace Run

def fail {α : Type} (fault : RuntimeFault) (token : Token) : Run α :=
  throw (.error (.faulted fault token))

def ofOperator (token : Token) : Except RuntimeFault Value → Run Value
  | .ok value => return value
  | .error fault => fail fault token

def write (text : String) : Run Unit := fun n =>
  let failure := n.output.failure? text
  let n := { n with output := n.output.accept text }
  match failure with
  | none => .ok () n
  | some failure => .error (.error (.outputFailed failure)) n

def print (value : Value) : Run Unit := do
  write ((← get).text value ++ "\n")

def close (sight : Sight) (decl : FunctionDecl) : Run Value := do
  return .function (← modifyGet (·.addFunction ⟨decl, sight, none⟩))

def deeper {α : Type} (body : Run α) : Run α := fun n =>
  match body { n with depth := n.depth + 1 } with
  | .ok result n => .ok result { n with depth := n.depth - 1 }
  | .error stop n => .error stop { n with depth := n.depth - 1 }

def repeatWhile (test : Run Bool) (body : Run Flow) : Nat → Run Flow
  | 0 => throw .exhausted
  | rounds + 1 => fun n =>
    match test n with
    | .ok false n => .ok .normal n
    | .ok true n =>
      match body n with
      | .ok .normal n => repeatWhile test body rounds n
      | .ok (.returned value) n => .ok (.returned value) n
      | .error stop n => .error stop n
    | .error stop n => .error stop n

/-- A new variable: a fresh cell in a block or function, and global outside. -/
def declare (sight : Sight) (name : Token) (value : Value) : Run Sight := fun n =>
  if sight.isLocal then
    let (cell, n) := n.addCell value
    .ok (sight.add name.lexeme cell) n
  else
    .ok sight (n.defineGlobal name.lexeme value)

def store (sight : Sight) (name : Token) (value : Value) : Run Unit := fun n =>
  match sight.find? name.lexeme with
  | some cell => .ok () (n.setCell cell value)
  | none =>
    if n.globals.contains name.lexeme then .ok () (n.defineGlobal name.lexeme value)
    else fail (.undefinedVariable name.lexeme) name n

def lookUp (sight : Sight) (name : Token) : Run Value := fun n =>
  match sight.find? name.lexeme with
  | some cell => .ok (n.cellAt cell) n
  | none =>
    match n.globals.get? name.lexeme with
    | some value => .ok value n
    | none => fail (.undefinedVariable name.lexeme) name n

/-- A new function whose own name is in sight when it is made. -/
def declareFunction (sight : Sight) (name : Token) (decl : FunctionDecl) : Run Sight := do
  let inner ← declare sight name .nil
  store inner name (← close inner decl)
  return inner

def getProperty (object : Value) (name : Token) : Run Value := fun n =>
  match object with
  | .instance id =>
    match n.getProperty id name.lexeme with
    | (some value, n) => .ok value n
    | (none, n) => fail (.undefinedProperty name.lexeme) name n
  | _ => fail .propertyOfOther name n

def receiver (object : Value) (name : Token) : Run InstanceId :=
  match object with
  | .instance id => return id
  | _ => fail .fieldOfOther name

def checkArity (expected found : Nat) (paren : Token) : Run Unit :=
  if expected = found then return () else fail (.arity expected found) paren

def callFunction (ctx : Context) (id : FunctionId) (arguments : List Value) (paren : Token) :
    Run Value := do
  if ctx.maxDepth ≤ (← get).depth then
    fail .tooDeep paren
  else
    ctx.call id arguments

def construct (ctx : Context) (id : ClassId) (arguments : List Value) (paren : Token) :
    Run Value := do
  let object := (← get).classAt id
  let initial := (← get).initializer? object
  checkArity ((← get).arityOfClass object) arguments.length paren
  let fresh ← modifyGet (·.addInstance id)
  match initial with
  | some f =>
    let bound ← modifyGet (·.bindFunction f fresh)
    let _ ← callFunction ctx bound arguments paren
    return .instance fresh
  | none => return .instance fresh

def invoke (ctx : Context) (callee : Value) (arguments : List Value) (paren : Token) :
    Run Value := do
  match callee with
  | .function id =>
    checkArity ((← get).functionAt id).arity arguments.length paren
    callFunction ctx id arguments paren
  | .class id => construct ctx id arguments paren
  | _ => fail .notCallable paren

def addMethods (sight : Sight) (members : Table String Value) :
    List FunctionDecl → Run (Table String Value)
  | [] => return members
  | method :: rest =>
    match method.name with
    | none => addMethods sight members rest
    | some name => do
      let id ← modifyGet (·.addFunction ⟨method, sight, none⟩)
      addMethods sight (members.insert name.lexeme (.function id)) rest

mutual

def expr (ctx : Context) (sight : Sight) : Expr → Run Value
  | .literal value => return .ofLiteral value
  | .unary operator right => do
    let right ← expr ctx sight right
    ofOperator operator (right.applyUnary operator.kind)
  | .binary left operator right => do
    let left ← expr ctx sight left
    let right ← expr ctx sight right
    ofOperator operator (left.applyBinary operator.kind right)
  | .logical left operator right => do
    let left ← expr ctx sight left
    if left.decidesAlone operator.kind then return left else expr ctx sight right
  | .ternary condition thenBranch elseBranch => do
    let condition ← expr ctx sight condition
    if condition.isTruthy then expr ctx sight thenBranch else expr ctx sight elseBranch
  | .grouping inner => expr ctx sight inner
  | .variable _ name => lookUp sight name
  | .assign _ name value => do
    let value ← expr ctx sight value
    store sight name value
    return value
  | .call callee paren arguments => do
    let callee ← expr ctx sight callee
    let arguments ← exprs ctx sight arguments
    invoke ctx callee arguments paren
  | .function decl => close sight decl
  | .get object name => do
    let object ← expr ctx sight object
    getProperty object name
  | .set object name value => do
    let object ← expr ctx sight object
    let id ← receiver object name
    let value ← expr ctx sight value
    modify (·.setField id name.lexeme value)
    return value
  | .this _ keyword => lookUp sight keyword

def exprs (ctx : Context) (sight : Sight) : List Expr → Run (List Value)
  | [] => return []
  | e :: rest => do
    let value ← expr ctx sight e
    let values ← exprs ctx sight rest
    return value :: values

/-- Runs a statement. Yields how it ends and what is in sight after it. -/
def stmt (ctx : Context) (sight : Sight) : Stmt → Run (Flow × Sight)
  | .expression value => do
    let _ ← expr ctx sight value
    return (.normal, sight)
  | .print value => do
    print (← expr ctx sight value)
    return (.normal, sight)
  | .var _ name none => do
    return (.normal, ← declare sight name .nil)
  | .var _ name (some initial) => do
    let value ← expr ctx sight initial
    return (.normal, ← declare sight name value)
  | .block body => do
    return (← stmts ctx sight.enter body, sight)
  | .branch condition thenBranch none => do
    let condition ← expr ctx sight condition
    if condition.isTruthy then
      return ((← stmt ctx sight thenBranch).1, sight)
    else
      return (.normal, sight)
  | .branch condition thenBranch (some elseBranch) => do
    let condition ← expr ctx sight condition
    if condition.isTruthy then
      return ((← stmt ctx sight thenBranch).1, sight)
    else
      return ((← stmt ctx sight elseBranch).1, sight)
  | .loop condition body => do
    let flow ← repeatWhile (Value.isTruthy <$> expr ctx sight condition)
      (Prod.fst <$> stmt ctx sight body) ctx.rounds
    return (flow, sight)
  | .function _ name decl => do
    return (.normal, ← declareFunction sight name decl)
  | .ret _ none => return (.returned .nil, sight)
  | .ret _ (some value) => do
    return (.returned (← expr ctx sight value), sight)
  | .class _ name _ fieldDecls methodDecls => do
    let inner ← declare sight name .nil
    let members ← fields ctx inner Table.empty fieldDecls
    let members ← addMethods inner members methodDecls
    let made ← modifyGet (·.addClass ⟨name.lexeme, members⟩)
    store inner name (.class made)
    return (.normal, inner)

def stmts (ctx : Context) (sight : Sight) : List Stmt → Run Flow
  | [] => return .normal
  | s :: rest => do
    match ← stmt ctx sight s with
    | (.normal, onward) => stmts ctx onward rest
    | (.returned value, _) => return .returned value

def fields (ctx : Context) (sight : Sight) (members : Table String Value) :
    List FieldDecl → Run (Table String Value)
  | [] => return members
  | .mk name none :: rest => fields ctx sight (members.insert name.lexeme .nil) rest
  | .mk name (some initial) :: rest => do
    let value ← expr ctx sight initial
    fields ctx sight (members.insert name.lexeme value) rest

end

def bindParams (sight : Sight) : List Param → List Value → Run Sight
  | param :: params, value :: values => do
    bindParams (← declare sight param.name value) params values
  | _, _ => return sight

def body (ctx : Context) (object : Closure) (arguments : List Value) : Run Value := do
  let flow ← deeper do
    let sight ← bindParams object.sight.enter object.decl.params arguments
    stmts ctx sight object.decl.body
  match object.isInitializer, object.receiver, flow with
  | true, some receiver, _ => return .instance receiver
  | _, _, .returned value => return value
  | _, _, .normal => return .nil

/-- Calls a function, with at most so many calls nested in it and rounds of each of its loops. -/
def call (maxDepth : Nat) : Nat → FunctionId → List Value → Run Value
  | 0, _, _ => throw .exhausted
  | bound + 1, id, arguments => do
    let object := (← get).functionAt id
    body ⟨maxDepth, bound, call maxDepth bound⟩ object arguments

def context (maxDepth bound : Nat) : Context :=
  ⟨maxDepth, bound, call maxDepth bound⟩

def flush : Run Unit := fun n =>
  match n.output.flushFailure? with
  | none => .ok () n
  | some failure => .error (.error (.outputFailed failure)) n

/-- Runs a program up to its first error and flushes its output. -/
def program (ctx : Context) (statements : List Stmt) : Run Unit := fun n =>
  match stmts ctx .top statements n with
  | .ok _ n => flush n
  | .error .exhausted n => .error .exhausted n
  | .error (.error e) n =>
    match flush n with
    | .ok _ n => .error (.error e) n
    | .error stop n => .error stop n

end Run
end Lox.Lexical
