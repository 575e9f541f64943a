import Lox.Proofs.Machine.Keeps
import Lox.Proofs.Syntax.Orderly

set_option autoImplicit false

/-! Interpreters that go through programs in one way and differ in what their steps do. A step looks up,
declares or assigns a variable, makes a function or a class, reads or sets a property, prints, calls, or
opens a scope; the interpreter is the one whose steps are those of machines. -/

namespace Lox

/-- What the steps of programs do to states of some kind. -/
structure Steps (σ : Type) where
  rounds : Nat
  lookUp : NodeId → Token → EStateM Stop σ Value
  store : NodeId → Token → Value → EStateM Stop σ Unit
  declare : NodeId → Token → Value → EStateM Stop σ Unit
  close : FunctionDecl → EStateM Stop σ Value
  getProperty : Value → Token → EStateM Stop σ Value
  setProperty : InstanceId → Token → Value → EStateM Stop σ Unit
  print : Value → EStateM Stop σ Unit
  invoke : Value → List Value → Token → EStateM Stop σ Value
  scope : EStateM Stop σ Flow → EStateM Stop σ Flow
  makeClass : ClassDecl → EStateM Stop σ (Table String Value) → EStateM Stop σ Unit

namespace Steps

variable {σ α : Type}

def fail (fault : RuntimeFault) (token : Token) : EStateM Stop σ α :=
  throw (.error (.faulted fault token))

def ofOperator (token : Token) : Except RuntimeFault Value → EStateM Stop σ Value
  | .ok value => return value
  | .error fault => fail fault token

def receiver (object : Value) (name : Token) : EStateM Stop σ InstanceId :=
  match object with
  | .instance id => return id
  | _ => fail .fieldOfOther name

/-- Repeats a body while a test holds, for at most so many rounds. -/
def repeatWhile (test : EStateM Stop σ Bool) (round : EStateM Stop σ Flow) : Nat → EStateM Stop σ Flow
  | 0 => throw .exhausted
  | rounds + 1 => roundThen test round (repeatWhile test round rounds)

variable (steps : Steps σ)

mutual

def expr : Expr → EStateM Stop σ Value
  | .literal value => return .ofLiteral value
  | .unary operator right => do
    let right ← expr right
    ofOperator operator (right.applyUnary operator.kind)
  | .binary left operator right => do
    let left ← expr left
    let right ← expr right
    ofOperator operator (left.applyBinary operator.kind right)
  | .logical left operator right => do
    let left ← expr left
    if left.decidesAlone operator.kind then return left else expr right
  | .ternary condition thenBranch elseBranch => do
    let condition ← expr condition
    if condition.isTruthy then expr thenBranch else expr elseBranch
  | .grouping inner => expr inner
  | .variable id name => steps.lookUp id name
  | .assign id name value => do
    let value ← expr value
    steps.store id name value
    return value
  | .call callee paren arguments => do
    let callee ← expr callee
    let arguments ← exprs arguments
    steps.invoke callee arguments paren
  | .function decl => steps.close decl
  | .get object name => do
    let object ← expr object
    steps.getProperty object name
  | .set object name value => do
    let object ← expr object
    let id ← receiver object name
    let value ← expr value
    steps.setProperty id name value
    return value
  | .this id keyword => steps.lookUp id keyword

def exprs : List Expr → EStateM Stop σ (List Value)
  | [] => return []
  | e :: rest => do
    let value ← expr e
    let values ← exprs rest
    return value :: values

def stmt : Stmt → EStateM Stop σ Flow
  | .expression value => do
    let _ ← expr value
    return .normal
  | .print value => do
    steps.print (← expr value)
    return .normal
  | .var id name none => do
    steps.declare id name .nil
    return .normal
  | .var id name (some initial) => do
    steps.declare id name (← expr initial)
    return .normal
  | .block body => steps.scope (stmts body)
  | .branch condition thenBranch none => do
    let condition ← expr condition
    if condition.isTruthy then stmt thenBranch else return .normal
  | .branch condition thenBranch (some elseBranch) => do
    let condition ← expr condition
    if condition.isTruthy then stmt thenBranch else stmt elseBranch
  | .loop condition body =>
    repeatWhile (Value.isTruthy <$> expr condition) (stmt body) steps.rounds
  | .function id name decl => do
    steps.declare id name (← steps.close decl)
    return .normal
  | .ret _ none => return .returned .nil
  | .ret _ (some value) => do
    return .returned (← expr value)
  | .class id name thisId fieldDecls methodDecls => do
    steps.makeClass ⟨id, name, thisId, fieldDecls, methodDecls⟩ (fields Table.empty fieldDecls)
    return .normal

def stmts : List Stmt → EStateM Stop σ Flow
  | [] => return .normal
  | s :: rest => do
    match ← stmt s with
    | .normal => stmts rest
    | .returned value => return .returned value

def fields (members : Table String Value) : List FieldDecl → EStateM Stop σ (Table String Value)
  | [] => return members
  | .mk name none :: rest => fields (members.insert name.lexeme .nil) rest
  | .mk name (some initial) :: rest => do
    let value ← expr initial
    fields (members.insert name.lexeme value) rest

end
end Steps

/-! ### The interpreter -/

namespace Exec

/-- Makes a class: it is in sight as `nil` while its fields get their first values. -/
def makeClass (ctx : Context) (decl : ClassDecl) (evaluate : Exec (Table String Value)) : Exec Unit := do
  declare ctx decl.id decl.name .nil
  let values ← evaluate
  let members ← addMethods (← capture) values decl.methods
  let made ← modifyGet (·.addClass ⟨decl.name.lexeme, members, ctx.bindings.slot? decl.thisId⟩)
  store ctx decl.id decl.name (.class made)

def steps (ctx : Context) : Steps Machine where
  rounds := ctx.rounds
  lookUp := lookUp ctx
  store := store ctx
  declare := declare ctx
  close := close
  getProperty := getProperty
  setProperty id name value := modify (·.setField id name.lexeme value)
  print := print
  invoke := invoke ctx
  scope body := do within (← capture) body
  makeClass := makeClass ctx

theorem repeatWhile_steps (test : Exec Bool) (round : Exec Flow) (rounds : Nat) :
    Steps.repeatWhile test round rounds = repeatWhile test round rounds := by
  induction rounds with
  | zero => rfl
  | succ rounds ih => rw [repeatWhile_succ, Steps.repeatWhile, ih]

theorem ofOperator_steps (token : Token) (result : Except RuntimeFault Value) :
    Steps.ofOperator token result = ofOperator token result := by
  cases result <;> rfl

theorem receiver_steps (object : Value) (name : Token) :
    Steps.receiver object name = receiver object name := by
  cases object <;> rfl

variable (ctx : Context)

mutual

theorem expr_steps : ∀ e : Expr, (steps ctx).expr e = expr ctx e
  | .literal _ => rfl
  | .unary _ right => by
    unfold Steps.expr expr
    simp only [expr_steps right, ofOperator_steps]
  | .binary left _ right => by
    unfold Steps.expr expr
    simp only [expr_steps left, expr_steps right, ofOperator_steps]
  | .logical left _ right => by
    unfold Steps.expr expr
    rw [expr_steps left, expr_steps right]
  | .ternary condition thenBranch elseBranch => by
    unfold Steps.expr expr
    rw [expr_steps condition, expr_steps thenBranch, expr_steps elseBranch]
  | .grouping inner => by
    unfold Steps.expr expr
    exact expr_steps inner
  | .variable _ _ => rfl
  | .assign _ _ value => by
    unfold Steps.expr expr
    rw [expr_steps value]
    rfl
  | .call callee _ arguments => by
    unfold Steps.expr expr
    rw [expr_steps callee, exprs_steps arguments]
    rfl
  | .function _ => rfl
  | .get object _ => by
    unfold Steps.expr expr
    rw [expr_steps object]
    rfl
  | .set object _ value => by
    unfold Steps.expr expr
    simp only [expr_steps object, expr_steps value, receiver_steps]
    rfl
  | .this _ _ => rfl

theorem exprs_steps : ∀ es : List Expr, (steps ctx).exprs es = exprs ctx es
  | [] => rfl
  | e :: rest => by
    unfold Steps.exprs exprs
    rw [expr_steps e, exprs_steps rest]

theorem stmt_steps : ∀ s : Stmt, (steps ctx).stmt s = stmt ctx s
  | .expression value => by
    unfold Steps.stmt stmt
    rw [expr_steps value]
  | .print value => by
    unfold Steps.stmt stmt
    rw [expr_steps value]
    rfl
  | .var _ _ none => rfl
  | .var _ _ (some initial) => by
    unfold Steps.stmt stmt
    rw [expr_steps initial]
    rfl
  | .block body => by
    unfold Steps.stmt stmt
    rw [stmts_steps body]
    rfl
  | .branch condition thenBranch none => by
    unfold Steps.stmt stmt
    rw [expr_steps condition, stmt_steps thenBranch]
  | .branch condition thenBranch (some elseBranch) => by
    unfold Steps.stmt stmt
    rw [expr_steps condition, stmt_steps thenBranch, stmt_steps elseBranch]
  | .loop condition body => by
    unfold Steps.stmt stmt
    rw [expr_steps condition, stmt_steps body, repeatWhile_steps]
    rfl
  | .function _ _ _ => rfl
  | .ret _ none => rfl
  | .ret _ (some value) => by
    unfold Steps.stmt stmt
    rw [expr_steps value]
  | .class _ _ _ fieldDecls _ => by
    unfold Steps.stmt stmt
    rw [fields_steps fieldDecls]
    simp only [steps, makeClass, bind_assoc]

theorem stmts_steps : ∀ ss : List Stmt, (steps ctx).stmts ss = stmts ctx ss
  | [] => rfl
  | s :: rest => by
    unfold Steps.stmts stmts
    rewrite [stmt_steps s, stmts_steps rest]
    refine congrArg _ (funext fun flow => ?_)
    cases flow <;> rfl

theorem fields_steps : ∀ (decls : List FieldDecl) (members : Table String Value),
    (steps ctx).fields members decls = fields ctx members decls
  | [], _ => rfl
  | .mk _ none :: rest, _ => by
    unfold Steps.fields fields
    exact fields_steps rest _
  | .mk _ (some initial) :: rest, _ => by
    unfold Steps.fields fields
    rw [expr_steps initial]
    exact congrArg _ (funext fun value => fields_steps rest _)

end
end Exec
end Lox
