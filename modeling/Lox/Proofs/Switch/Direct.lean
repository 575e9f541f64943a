import Lox.Machine.Evaluate
import Lox.Proofs.Derivation.Grammar

set_option autoImplicit false

/-! Switches without hidden variables. The direct interpreter goes through programs like the interpreter,
but a switch keeps the value of its subject to itself: it evaluates the subject once and compares its
value with one arm after the other, and no variable is declared for it. -/

namespace Lox.Direct

open Grammar
open Exec (ofOperator print capture close within deeper repeatWhile declare store lookUp getProperty
  receiver invoke addMethods bindParams)

/-- Whether a name is that of the hidden variable of the switch whose variable is node `id`. -/
def hides (id : NodeId) (name : Token) : Bool :=
  name.lexeme == "switch#" ++ toString id

/-- An arm of a switch that has been written out, which compares its hidden variable with a pattern. -/
def isArm (id : NodeId) : Stmt → Bool
  | .branch (.binary (.variable _ name) _ _) _ _ => hides id name
  | _ => false

mutual

def expr (ctx : Context) : Expr → Exec Value
  | .literal value => return .ofLiteral value
  | .unary operator right => do
    let right ← expr ctx right
    ofOperator operator (right.applyUnary operator.kind)
  | .binary left operator right => do
    let left ← expr ctx left
    let right ← expr ctx right
    ofOperator operator (left.applyBinary operator.kind right)
  | .logical left operator right => do
    let left ← expr ctx left
    if left.decidesAlone operator.kind then return left else expr ctx right
  | .ternary condition thenBranch elseBranch => do
    let condition ← expr ctx condition
    if condition.isTruthy then expr ctx thenBranch else expr ctx elseBranch
  | .grouping inner => expr ctx inner
  | .variable id name => lookUp ctx id name
  | .assign id name value => do
    let value ← expr ctx value
    store ctx id name value
    return value
  | .call callee paren arguments => do
    let callee ← expr ctx callee
    let arguments ← exprs ctx arguments
    invoke ctx callee arguments paren
  | .function decl => close decl
  | .get object name => do
    let object ← expr ctx object
    getProperty object name
  | .set object name value => do
    let object ← expr ctx object
    let id ← receiver object name
    let value ← expr ctx value
    modify (·.setField id name.lexeme value)
    return value
  | .this id keyword => lookUp ctx id keyword

def exprs (ctx : Context) : List Expr → Exec (List Value)
  | [] => return []
  | e :: rest => do
    let value ← expr ctx e
    let values ← exprs ctx rest
    return value :: values

def stmt (ctx : Context) : Stmt → Exec Flow
  | .expression value => do
    let _ ← expr ctx value
    return .normal
  | .print value => do
    print (← expr ctx value)
    return .normal
  | .var id name none => do
    declare ctx id name .nil
    return .normal
  | .var id name (some initial) => do
    declare ctx id name (← expr ctx initial)
    return .normal
  | .block body => do
    within (← capture) (block ctx (stmts ctx body) body)
  | .branch condition thenBranch none => do
    let condition ← expr ctx condition
    if condition.isTruthy then stmt ctx thenBranch else return .normal
  | .branch condition thenBranch (some elseBranch) => do
    let condition ← expr ctx condition
    if condition.isTruthy then stmt ctx thenBranch else stmt ctx elseBranch
  | .loop condition body =>
    repeatWhile (Value.isTruthy <$> expr ctx condition) (stmt ctx body) ctx.rounds
  | .function id name decl => do
    declare ctx id name (← close decl)
    return .normal
  | .ret _ none => return .returned .nil
  | .ret _ (some value) => do
    return .returned (← expr ctx value)
  | .class id name thisId fieldDecls methodDecls => do
    declare ctx id name .nil
    let members ← fields ctx Table.empty fieldDecls
    let members ← addMethods (← capture) members methodDecls
    let object := ⟨name.lexeme, members, ctx.bindings.slot? thisId⟩
    let made ← modifyGet (·.addClass object)
    store ctx id name (.class made)
    return .normal

def stmts (ctx : Context) : List Stmt → Exec Flow
  | [] => return .normal
  | s :: rest => do
    match ← stmt ctx s with
    | .normal => stmts ctx rest
    | .returned value => return .returned value

/-- What is in a block. If that begins with a hidden variable, the block is a switch: its subject is evaluated
and an arm is chosen. If not, the statements of the block are run. -/
def block (ctx : Context) (all : Exec Flow) : List Stmt → Exec Flow
  | .var id name (some subject) :: arms =>
    if hides id name then do
      let value ← expr ctx subject
      choose ctx id value arms
    else all
  | _ => all

/-- The arms that are left, one within the other, with the action of the default arm innermost. -/
def choose (ctx : Context) (id : NodeId) (value : Value) : List Stmt → Exec Flow
  | [] => return .normal
  | s :: _ => if isArm id s then arm ctx id value s else stmt ctx s

def arm (ctx : Context) (id : NodeId) (value : Value) : Stmt → Exec Flow
  | .branch (.binary _ _ pattern) action none => do
    let found ← expr ctx pattern
    if value.equals found then stmt ctx action else return .normal
  | .branch (.binary _ _ pattern) action (some other) => do
    let found ← expr ctx pattern
    if value.equals found then stmt ctx action
    else if isArm id other then arm ctx id value other
    else stmt ctx other
  | _ => return .normal

def fields (ctx : Context) (members : Table String Value) :
    List FieldDecl → Exec (Table String Value)
  | [] => return members
  | .mk name none :: rest => fields ctx (members.insert name.lexeme .nil) rest
  | .mk name (some initial) :: rest => do
    let value ← expr ctx initial
    fields ctx (members.insert name.lexeme value) rest

end

/-- Runs the body of a function in a new frame. An initializer yields its instance. -/
def body (ctx : Context) (object : FunctionObject) (arguments : List Value) : Exec Value := do
  let flow ← deeper <| within object.closure do
    modify fun m =>
      { m with environment := bindParams ctx.bindings m.environment object.decl.params arguments }
    stmts ctx object.decl.body
  match object.isInitializer, object.receiver, flow with
  | true, some receiver, _ => return .instance receiver
  | _, _, .returned value => return value
  | _, _, .normal => return .nil

def call (bindings : Bindings) (maxDepth : Nat) : Nat → FunctionId → List Value → Exec Value
  | 0, _, _ => throw .exhausted
  | bound + 1, id, arguments => do
    let object := (← get).functionAt id
    body ⟨bindings, maxDepth, bound, call bindings maxDepth bound⟩ object arguments

def context (bindings : Bindings) (maxDepth bound : Nat) : Context :=
  ⟨bindings, maxDepth, bound, call bindings maxDepth bound⟩

def program (ctx : Context) (statements : List Stmt) : Exec Unit := fun m =>
  match stmts ctx statements m with
  | .ok _ m => Exec.flush m
  | .error .exhausted m => .error .exhausted m
  | .error (.error e) m =>
    match Exec.flush m with
    | .ok _ m => .error (.error e) m
    | .error stop m => .error stop m

/-! ### What a switch does -/

/-- The value of a subject is compared with one arm after the other, in the order of the source. The action
of the first arm that it equals is run and no later arm is looked at; if there is none, the action of
the default arm is run, or nothing. -/
def pick (ctx : Context) (value : Value) : List (Expr × Stmt) → Option Stmt → Exec Flow
  | [], none => return .normal
  | [], some action => stmt ctx action
  | (pattern, action) :: rest, default => do
    let found ← expr ctx pattern
    if value.equals found then stmt ctx action else pick ctx value rest default

/-- A switch evaluates its subject once, and then picks an arm, in a scope of its own. -/
def switch (ctx : Context) (subject : Expr) (arms : List (Expr × Stmt)) (default : Option Stmt) :
    Exec Flow := do
  within (← capture) do
    let value ← expr ctx subject
    pick ctx value arms default

theorem hides_hiddenName (id : NodeId) (keyword : Token) : hides id (Rules.hiddenName id keyword) = true :=
  beq_self_eq_true _

theorem block_of_hides (ctx : Context) {id : NodeId} {name : Token} (hidden : hides id name = true)
    (all : Exec Flow) (subject : Expr) (arms : List Stmt) :
    block ctx all (.var id name (some subject) :: arms) = (do
      let value ← expr ctx subject
      choose ctx id value arms) := by
  rw [block, if_pos hidden]

/-- An arm is one comparison; if it fails, the arms after it are left. -/
theorem choose_arm (ctx : Context) {id test : NodeId} {name operator : Token} (hidden : hides id name = true)
    (value : Value) (pattern : Expr) (action : Stmt) (rest : Option Stmt) :
    choose ctx id value [.branch (.binary (.variable test name) operator pattern) action rest] = (do
      let found ← expr ctx pattern
      if value.equals found then stmt ctx action else choose ctx id value rest.toList) := by
  have known : isArm id (.branch (.binary (.variable test name) operator pattern) action rest) = true :=
    hidden
  rw [choose, known]
  cases rest <;> rfl

theorem choose_default (ctx : Context) {id : NodeId} {action : Stmt} (other : isArm id action = false)
    (value : Value) : choose ctx id value [action] = stmt ctx action := by
  unfold choose
  rw [other]
  rfl

open Derives (armsImage switchImage)

theorem choose_armsImage (ctx : Context) (id : NodeId) (keyword : Token) (firstId : NodeId) (value : Value)
    {default : Option Stmt} (other : ∀ action, default = some action → isArm id action = false) :
    ∀ arms : List (Expr × Stmt),
      choose ctx id value (armsImage id keyword firstId arms default).toList =
        pick ctx value arms default
  | [] => by
    cases default with
    | none => rfl
    | some action => exact choose_default ctx (other action rfl) value
  | (pattern, action) :: rest => by
    refine (choose_arm ctx (hides_hiddenName id keyword) value pattern action _).trans ?_
    rw [choose_armsImage ctx id keyword firstId value other rest]
    rfl

/-- What has been written out for a switch is run as that switch. -/
theorem stmt_switchImage (ctx : Context) (id : NodeId) (keyword : Token) (subject : Expr) (firstId : NodeId)
    (arms : List (Expr × Stmt)) {default : Option Stmt}
    (other : ∀ action, default = some action → isArm id action = false) :
    stmt ctx (switchImage id keyword subject firstId arms default) = switch ctx subject arms default := by
  refine congrArg (capture >>= ·) (funext fun chain => congrArg (within chain) ?_)
  refine (block_of_hides ctx (hides_hiddenName id keyword) _ subject _).trans ?_
  exact congrArg (expr ctx subject >>= ·)
    (funext fun value => choose_armsImage ctx id keyword firstId value other arms)

end Lox.Direct
