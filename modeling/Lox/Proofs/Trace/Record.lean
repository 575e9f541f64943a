import Lox.Proofs.Machine.Keeps

set_option autoImplicit false

/-! A recording interpreter. It goes through programs like the interpreter and keeps a record of every
machine that it has been on, step by step, and of the declarations outside all blocks that it has
executed. A variable counts as declared when its first value is known, and a class before its members
are looked at. -/

namespace Lox

/-- What can be seen of a run at one moment: the machine, and the names of the declarations outside all
blocks that have been executed, latest first. -/
structure Moment where
  machine : Machine
  declared : List String

/-- A run so far: the present moment and the moments before it, latest first. -/
structure Record where
  now : Moment
  past : List Moment

namespace Record

def moments (r : Record) : List Moment :=
  r.now :: r.past

def next (r : Record) (moment : Moment) : Record :=
  ⟨moment, r.moments⟩

/-- The machine takes a step that declares nothing outside all blocks. -/
def become (r : Record) (m : Machine) : Record :=
  r.next ⟨m, r.now.declared⟩

/-- The first moment of a run. -/
def start (m : Machine) (declared : List String) : Record :=
  ⟨⟨m, declared⟩, []⟩

end Record

abbrev Traced (α : Type) := EStateM Stop Record α

namespace Traced

variable {α : Type}

def machine : Traced Machine := fun r =>
  .ok r.now.machine r

def capture : Traced Chain := fun r =>
  .ok r.now.machine.environment.current r

/-- Does what a plain computation does, as one step. -/
def step (plain : Exec α) : Traced α := fun r =>
  match plain r.now.machine with
  | .ok a m => .ok a (r.become m)
  | .error stop m => .error stop (r.become m)

/-- Declares a name outside all blocks. -/
def enter (ctx : Context) (id : NodeId) (name : Token) (value : Value) : Traced Unit := fun r =>
  match Exec.declare ctx id name value r.now.machine with
  | .ok a m => .ok a (r.next ⟨m, name.lexeme :: r.now.declared⟩)
  | .error stop m => .error stop (r.become m)

/-- Takes a step before a body and another one after it, whatever its outcome. -/
def around (before after : Machine → Machine) (body : Traced α) : Traced α := fun r =>
  match body (r.become (before r.now.machine)) with
  | .ok a r => .ok a (r.become (after r.now.machine))
  | .error stop r => .error stop (r.become (after r.now.machine))

def within (chain : Chain) (body : Traced α) : Traced α := fun r =>
  let previous := r.now.machine.environment.current
  around (fun m => { m with environment := m.environment.graft chain })
    (fun m => { m with environment := m.environment.restore previous }) body r

def deeper (body : Traced α) : Traced α :=
  around (fun m => { m with depth := m.depth + 1 }) (fun m => { m with depth := m.depth - 1 }) body

def repeatWhile (test : Traced Bool) (body : Traced Flow) : Nat → Traced Flow
  | 0 => throw .exhausted
  | rounds + 1 => roundThen test body (repeatWhile test body rounds)

/-- How functions are called. -/
abbrev Calls := FunctionId → List Value → Traced Value

variable (ctx : Context) (call : Calls)

def callFunction (id : FunctionId) (arguments : List Value) (paren : Token) : Traced Value := do
  if ctx.maxDepth ≤ (← machine).depth then
    step (Exec.fail .tooDeep paren)
  else
    call id arguments

def construct (id : ClassId) (arguments : List Value) (paren : Token) : Traced Value := do
  let object := (← machine).classAt id
  let initial := (← machine).initializer? object
  step (Exec.checkArity ((← machine).arityOfClass object) arguments.length paren)
  let fresh ← step (modifyGet (·.addInstance id))
  match initial, object.thisSlot with
  | some f, some slot =>
    let bound ← step (modifyGet (·.bindFunction f fresh slot))
    let _ ← callFunction ctx call bound arguments paren
    return .instance fresh
  | _, _ => return .instance fresh

def invoke (callee : Value) (arguments : List Value) (paren : Token) : Traced Value := do
  match callee with
  | .function id =>
    step (Exec.checkArity ((← machine).functionAt id).arity arguments.length paren)
    callFunction ctx call id arguments paren
  | .class id => construct ctx call id arguments paren
  | _ => step (Exec.fail .notCallable paren)

/-- Makes the class of a declaration once its fields have their first values. -/
def makeClass (id : NodeId) (name : Token) (thisId : NodeId) (methodDecls : List FunctionDecl)
    (members : Table String Value) : Traced Flow := do
  let members ← step (Exec.addMethods (← capture) members methodDecls)
  let object := ⟨name.lexeme, members, ctx.bindings.slot? thisId⟩
  let made ← step (modifyGet (·.addClass object))
  step (Exec.store ctx id name (.class made))
  return .normal

mutual

def expr : Expr → Traced Value
  | .literal value => return .ofLiteral value
  | .unary operator right => do
    let right ← expr right
    step (Exec.ofOperator operator (right.applyUnary operator.kind))
  | .binary left operator right => do
    let left ← expr left
    let right ← expr right
    step (Exec.ofOperator operator (left.applyBinary operator.kind right))
  | .logical left operator right => do
    let left ← expr left
    if left.decidesAlone operator.kind then return left else expr right
  | .ternary condition thenBranch elseBranch => do
    let condition ← expr condition
    if condition.isTruthy then expr thenBranch else expr elseBranch
  | .grouping inner => expr inner
  | .variable id name => step (Exec.lookUp ctx id name)
  | .assign id name value => do
    let value ← expr value
    step (Exec.store ctx id name value)
    return value
  | .call callee paren arguments => do
    let callee ← expr callee
    let arguments ← exprs arguments
    invoke ctx call callee arguments paren
  | .function decl => step (Exec.close decl)
  | .get object name => do
    let object ← expr object
    step (Exec.getProperty object name)
  | .set object name value => do
    let object ← expr object
    let id ← step (Exec.receiver object name)
    let value ← expr value
    step (modify (·.setField id name.lexeme value))
    return value
  | .this id keyword => step (Exec.lookUp ctx id keyword)

def exprs : List Expr → Traced (List Value)
  | [] => return []
  | e :: rest => do
    let value ← expr e
    let values ← exprs rest
    return value :: values

def stmt : Stmt → Traced Flow
  | .expression value => do
    let _ ← expr value
    return .normal
  | .print value => do
    step (Exec.print (← expr value))
    return .normal
  | .var id name none => do
    step (Exec.declare ctx id name .nil)
    return .normal
  | .var id name (some initial) => do
    step (Exec.declare ctx id name (← expr initial))
    return .normal
  | .block body => do
    within (← capture) (stmts body)
  | .branch condition thenBranch none => do
    let condition ← expr condition
    if condition.isTruthy then stmt thenBranch else return .normal
  | .branch condition thenBranch (some elseBranch) => do
    let condition ← expr condition
    if condition.isTruthy then stmt thenBranch else stmt elseBranch
  | .loop condition body =>
    repeatWhile (Value.isTruthy <$> expr condition) (stmt body) ctx.rounds
  | .function id name decl => do
    step (Exec.declare ctx id name (← step (Exec.close decl)))
    return .normal
  | .ret _ none => return .returned .nil
  | .ret _ (some value) => do
    return .returned (← expr value)
  | .class id name thisId fieldDecls methodDecls => do
    step (Exec.declare ctx id name .nil)
    let members ← fields Table.empty fieldDecls
    makeClass ctx id name thisId methodDecls members

def stmts : List Stmt → Traced Flow
  | [] => return .normal
  | s :: rest => do
    match ← stmt s with
    | .normal => stmts rest
    | .returned value => return .returned value

def fields (members : Table String Value) : List FieldDecl → Traced (Table String Value)
  | [] => return members
  | .mk name none :: rest => fields (members.insert name.lexeme .nil) rest
  | .mk name (some initial) :: rest => do
    let value ← expr initial
    fields (members.insert name.lexeme value) rest

end

def body (object : FunctionObject) (arguments : List Value) : Traced Value := do
  let flow ← deeper <| within object.closure do
    step <| modify fun m => { m with
      environment := Exec.bindParams ctx.bindings m.environment object.decl.params arguments }
    stmts ctx call object.decl.body
  match object.isInitializer, object.receiver, flow with
  | true, some receiver, _ => return .instance receiver
  | _, _, .returned value => return value
  | _, _, .normal => return .nil

/-- A statement outside all blocks. -/
def outermost : Stmt → Traced Flow
  | .var id name none => do
    enter ctx id name .nil
    return .normal
  | .var id name (some initial) => do
    enter ctx id name (← expr ctx call initial)
    return .normal
  | .function id name decl => do
    enter ctx id name (← step (Exec.close decl))
    return .normal
  | .class id name thisId fieldDecls methodDecls => do
    enter ctx id name .nil
    let members ← fields ctx call Table.empty fieldDecls
    makeClass ctx id name thisId methodDecls members
  | s => stmt ctx call s

def sequence : List Stmt → Traced Flow
  | [] => return .normal
  | s :: rest => do
    match ← outermost ctx call s with
    | .normal => sequence rest
    | .returned value => return .returned value

omit ctx call in
def calls (bindings : Bindings) (maxDepth : Nat) : Nat → Calls
  | 0, _, _ => throw .exhausted
  | bound + 1, id, arguments => do
    let object := (← machine).functionAt id
    body (Exec.context bindings maxDepth bound) (calls bindings maxDepth bound) object arguments

def flush : Traced Unit :=
  step Exec.flush

/-- Runs a program up to its first error and flushes its output. -/
def program (statements : List Stmt) : Traced Unit := fun r =>
  match sequence ctx call statements r with
  | .ok _ r => flush r
  | .error .exhausted r => .error .exhausted r
  | .error (.error e) r =>
    match flush r with
    | .ok _ r => .error (.error e) r
    | .error stop r => .error stop r

end Traced
end Lox
