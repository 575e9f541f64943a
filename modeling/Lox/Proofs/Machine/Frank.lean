import Lox.Proofs.Machine.Cells
import Lox.Proofs.Machine.Guarded

set_option autoImplicit false

/-! The guarded interpreter whose alarm says what the interpreter says is the interpreter itself. So what
holds of guarded interpreters, whatever the alarm, holds of it too. -/

namespace Lox.Guarded

/-- The alarm that reports an undefined variable. -/
def frank : Alarm := fun _ name => .error (.faulted (.undefinedVariable name.lexeme) name)

theorem lookUp_frank (ctx : Context) (id : NodeId) (name : Token) :
    lookUp frank ctx id name = Exec.lookUp ctx id name := by
  funext m
  unfold lookUp Exec.lookUp
  cases ctx.bindings.slot? id with
  | none => cases m.environment.getGlobal? name.lexeme <;> rfl
  | some slot =>
    dsimp only
    cases found : m.environment.find? m.environment.current slot with
    | some frame => rfl
    | none =>
      rw [Environment.get?, Environment.read?_of_find?_eq_none found]
      rfl

theorem store_frank (ctx : Context) (id : NodeId) (name : Token) (value : Value) :
    store frank ctx id name value = Exec.store ctx id name value :=
  rfl

mutual

theorem expr_frank (ctx : Context) : ∀ e : Expr, expr frank ctx e = Exec.expr ctx e
  | .literal _ => rfl
  | .unary _ right => by
      unfold expr Exec.expr
      rw [expr_frank ctx right]
  | .binary left _ right => by
      unfold expr Exec.expr
      rw [expr_frank ctx left, expr_frank ctx right]
  | .logical left _ right => by
      unfold expr Exec.expr
      rw [expr_frank ctx left, expr_frank ctx right]
  | .ternary condition thenBranch elseBranch => by
      unfold expr Exec.expr
      rw [expr_frank ctx condition, expr_frank ctx thenBranch, expr_frank ctx elseBranch]
  | .grouping inner => by
      unfold expr Exec.expr
      exact expr_frank ctx inner
  | .variable id name => lookUp_frank ctx id name
  | .assign id name value => by
      unfold expr Exec.expr
      rw [expr_frank ctx value]
      rfl
  | .call callee _ arguments => by
      unfold expr Exec.expr
      rw [expr_frank ctx callee, exprs_frank ctx arguments]
  | .function _ => rfl
  | .get object _ => by
      unfold expr Exec.expr
      rw [expr_frank ctx object]
  | .set object _ value => by
      unfold expr Exec.expr
      rw [expr_frank ctx object, expr_frank ctx value]
  | .this id keyword => lookUp_frank ctx id keyword

theorem exprs_frank (ctx : Context) : ∀ es : List Expr, exprs frank ctx es = Exec.exprs ctx es
  | [] => rfl
  | e :: rest => by
      unfold exprs Exec.exprs
      rw [expr_frank ctx e, exprs_frank ctx rest]

theorem stmt_frank (ctx : Context) : ∀ s : Stmt, stmt frank ctx s = Exec.stmt ctx s
  | .expression value => by
      unfold stmt Exec.stmt
      rw [expr_frank ctx value]
  | .print value => by
      unfold stmt Exec.stmt
      rw [expr_frank ctx value]
  | .var _ _ none => rfl
  | .var _ _ (some initial) => by
      unfold stmt Exec.stmt
      rw [expr_frank ctx initial]
  | .block body => by
      unfold stmt Exec.stmt
      rw [stmts_frank ctx body]
  | .branch condition thenBranch none => by
      unfold stmt Exec.stmt
      rw [expr_frank ctx condition, stmt_frank ctx thenBranch]
  | .branch condition thenBranch (some elseBranch) => by
      unfold stmt Exec.stmt
      rw [expr_frank ctx condition, stmt_frank ctx thenBranch, stmt_frank ctx elseBranch]
  | .loop condition body => by
      unfold stmt Exec.stmt
      rw [expr_frank ctx condition, stmt_frank ctx body]
  | .function _ _ _ => rfl
  | .ret _ none => rfl
  | .ret _ (some value) => by
      unfold stmt Exec.stmt
      rw [expr_frank ctx value]
  | .class _ _ _ fieldDecls _ => by
      unfold stmt Exec.stmt
      rw [fields_frank ctx fieldDecls]
      rfl

theorem stmts_frank (ctx : Context) : ∀ ss : List Stmt, stmts frank ctx ss = Exec.stmts ctx ss
  | [] => rfl
  | s :: rest => by
      unfold stmts Exec.stmts
      rewrite [stmt_frank ctx s, stmts_frank ctx rest]
      refine congrArg _ (funext fun flow => ?_)
      cases flow <;> rfl

theorem fields_frank (ctx : Context) : ∀ (decls : List FieldDecl) (members : Table String Value),
    fields frank ctx members decls = Exec.fields ctx members decls
  | [], _ => rfl
  | .mk _ none :: rest, _ => by
      unfold fields Exec.fields
      exact fields_frank ctx rest _
  | .mk _ (some initial) :: rest, _ => by
      unfold fields Exec.fields
      rw [expr_frank ctx initial]
      exact congrArg _ (funext fun value => fields_frank ctx rest _)

end

theorem body_frank (ctx : Context) (object : FunctionObject) (arguments : List Value) :
    body frank ctx object arguments = Exec.body ctx object arguments := by
  unfold body Exec.body
  rewrite [stmts_frank]
  refine congrArg _ (funext fun flow => ?_)
  cases object.isInitializer <;> cases object.receiver <;> cases flow <;> rfl

theorem call_frank (bindings : Bindings) (maxDepth bound : Nat) :
    call frank bindings maxDepth bound = Exec.call bindings maxDepth bound := by
  induction bound with
  | zero => rfl
  | succ bound ih =>
      funext id arguments
      unfold call Exec.call
      rw [ih]
      exact congrArg _ (funext fun m => body_frank _ _ _)

theorem context_frank (bindings : Bindings) (maxDepth bound : Nat) :
    context frank bindings maxDepth bound = Exec.context bindings maxDepth bound := by
  unfold context Exec.context
  rw [call_frank]

end Lox.Guarded
