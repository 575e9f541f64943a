import Lox.Proofs.Machine.Keeps
import Lox.Proofs.Syntax.Likeness

set_option autoImplicit false

/-! Two interpreters on code that is alike. Whatever relates computations is kept by sequences, frames and
loops, and holds of each step that does not depend on code, relates all that the code does: by induction
on how the code is alike. -/

namespace Lox.Guarded

open Exec
open Grammar.Rules (hiddenName armTest)

set_option linter.unusedSectionVars false

variable {alarm alarm' : Alarm} {ctx ctx' : Context}

/-! ### A switch that is written out -/

/-- The rest of a switch. -/
def chain (alarm : Alarm) (ctx : Context) : Option Stmt → Exec Flow
  | none => return .normal
  | some s => stmt alarm ctx s

theorem stmts_singleton (s : Stmt) : stmts alarm ctx [s] = stmt alarm ctx s := by
  unfold stmts
  funext m
  cases result : stmt alarm ctx s m with
  | error stop last => rw [Outcome.bind_of_error result]
  | ok flow last =>
      rw [Outcome.bind_of_ok result]
      cases flow <;> rfl

theorem stmts_chain (arms : Option Stmt) : stmts alarm ctx arms.toList = chain alarm ctx arms := by
  cases arms with
  | none => rfl
  | some s => exact stmts_singleton s

theorem switch_eq (id : NodeId) (keyword : Token) (subject : Expr) (arms : Option Stmt) :
    stmts alarm ctx (.var id (hiddenName id keyword) (some subject) :: arms.toList) = (do
      declare ctx id (hiddenName id keyword) (← expr alarm ctx subject)
      chain alarm ctx arms) := by
  rw [← stmts_chain]
  funext m
  conv_lhs => unfold stmts
  unfold stmt
  simp only [bind_assoc, pure_bind]

theorem branch_eq (condition : Expr) (action : Stmt) (rest : Option Stmt) :
    chain alarm ctx (some (.branch condition action rest)) = (do
      let condition ← expr alarm ctx condition
      if condition.isTruthy then stmt alarm ctx action else chain alarm ctx rest) := by
  cases rest <;> rfl

/-- Comparing with an arm, which cannot fail by itself. -/
theorem arm_eq (id : NodeId) (hidden keyword : Token) (pattern : Expr) (action : Stmt)
    (rest : Option Stmt) :
    chain alarm ctx (some (.branch (armTest id hidden keyword pattern) action rest)) = (do
      let left ← lookUp alarm ctx id hidden
      let right ← expr alarm ctx pattern
      if left.equals right then stmt alarm ctx action else chain alarm ctx rest) := by
  have test : expr alarm ctx (armTest id hidden keyword pattern) = (do
      let left ← lookUp alarm ctx id hidden
      let right ← expr alarm ctx pattern
      ofOperator ⟨.symbol .equalEqual, "==", keyword.offset⟩
        (left.applyBinary (.symbol .equalEqual) right)) := rfl
  have compared (left right : Value) : left.applyBinary (.symbol .equalEqual) right =
      .ok (.bool (left.equals right)) := by
    cases left <;> rfl
  rw [branch_eq, test]
  simp only [bind_assoc, compared]
  rfl

/-! ### What a relation owes -/

/-- A relation between computations that sequences, frames and loops keep, and that holds of each step of
two interpreters on code that is alike. -/
structure Parallel (like : Likeness) (alarm alarm' : Alarm) (ctx ctx' : Context)
    (related : ∀ {α : Type}, Exec α → Exec α → Prop) : Prop where
  pure : ∀ {α : Type} (a : α), related (return a) (return a)
  bind : ∀ {α β : Type} {x y : Exec α} {f g : α → Exec β}, related x y →
    (∀ a, related (f a) (g a)) → related (x >>= f) (y >>= g)
  capture : related capture capture
  within : ∀ {α : Type} (chain : Chain) {x y : Exec α}, related x y →
    related (within chain x) (within chain y)
  repeatWhile : ∀ {test test' : Exec Bool} {round round' : Exec Flow}, related test test' →
    related round round' →
    related (repeatWhile test round ctx.rounds) (repeatWhile test' round' ctx'.rounds)
  kind : ∀ {t u : Token}, like.token t u → t.kind = u.kind
  lexeme : ∀ {t u : Token}, like.token t u → t.lexeme = u.lexeme
  ofOperator : ∀ {t u : Token}, like.token t u → ∀ result, related (ofOperator t result)
    (ofOperator u result)
  lookUp : ∀ {id other : NodeId} {t u : Token}, like.named id t other u →
    related (lookUp alarm ctx id t) (lookUp alarm' ctx' other u)
  store : ∀ {id other : NodeId} {t u : Token}, like.named id t other u → ∀ value,
    related (store alarm ctx id t value) (store alarm' ctx' other u value)
  declare : ∀ {id other : NodeId} {t u : Token}, like.named id t other u → ∀ value,
    related (declare ctx id t value) (declare ctx' other u value)
  lookUpHidden : ∀ {id other : NodeId}, like.hidden id other → ∀ t u,
    related (Guarded.lookUp alarm ctx id t) (Guarded.lookUp alarm' ctx' other u)
  declareHidden : ∀ {id other : NodeId}, like.hidden id other → ∀ t u value,
    related (Exec.declare ctx id t value) (Exec.declare ctx' other u value)
  invoke : ∀ {t u : Token}, like.token t u → ∀ callee arguments,
    related (invoke ctx callee arguments t) (invoke ctx' callee arguments u)
  close : ∀ {decl decl' : FunctionDecl}, FunctionDecl.Like like decl decl' →
    related (close decl) (close decl')
  getProperty : ∀ {t u : Token}, like.token t u → ∀ object,
    related (getProperty object t) (getProperty object u)
  receiver : ∀ {t u : Token}, like.token t u → ∀ object,
    related (receiver object t) (receiver object u)
  setField : ∀ (id : InstanceId) (name : String) (value : Value),
    related (modify (·.setField id name value)) (modify (·.setField id name value))
  print : ∀ value, related (print value) (print value)
  addMethods : ∀ (closure : Chain) (members : Table String Value) {decls decls' : List FunctionDecl},
    Functions.Like like decls decls' →
    related (addMethods closure members decls) (addMethods closure members decls')
  addClass : ∀ {t u : Token} {id other : NodeId}, like.token t u → like.node id other →
    ∀ members : Table String Value,
    related (modifyGet (·.addClass ⟨t.lexeme, members, ctx.bindings.slot? id⟩))
      (modifyGet (·.addClass ⟨u.lexeme, members, ctx'.bindings.slot? other⟩))

section

variable {like : Likeness} {related : ∀ {α : Type}, Exec α → Exec α → Prop}
  (parallel : Parallel like alarm alarm' ctx ctx' related)
include parallel

theorem Parallel.map {α β : Type} (f : α → β) {x y : Exec α} (same : related x y) :
    related (f <$> x) (f <$> y) := by
  rw [map_eq_pure_bind, map_eq_pure_bind]
  exact parallel.bind same fun a => parallel.pure (f a)

mutual

theorem Parallel.expr : ∀ {e e' : Expr}, Expr.Like like e e' →
    related (expr alarm ctx e) (expr alarm' ctx' e')
  | _, _, .literal value => parallel.pure _
  | _, _, .unary operators rights =>
      parallel.bind (Parallel.expr rights) fun right => by
        rw [parallel.kind operators]
        exact parallel.ofOperator operators _
  | _, _, .binary lefts operators rights =>
      parallel.bind (Parallel.expr lefts) fun left =>
        parallel.bind (Parallel.expr rights) fun right => by
          rw [parallel.kind operators]
          exact parallel.ofOperator operators _
  | _, _, .logical lefts operators rights => by
      refine parallel.bind (Parallel.expr lefts) fun left => ?_
      rw [parallel.kind operators]
      split
      · exact parallel.pure left
      · exact Parallel.expr rights
  | _, _, .ternary conditions thens elses => by
      refine parallel.bind (Parallel.expr conditions) fun condition => ?_
      split
      · exact Parallel.expr thens
      · exact Parallel.expr elses
  | _, _, .grouping inners => by
      unfold Guarded.expr
      exact Parallel.expr inners
  | _, _, .name names => parallel.lookUp names
  | _, _, .assign names values =>
      parallel.bind (Parallel.expr values) fun value =>
        parallel.bind (parallel.store names value) fun _ => parallel.pure value
  | _, _, .call callees parens values =>
      parallel.bind (Parallel.expr callees) fun callee =>
        parallel.bind (Parallel.exprs values) fun arguments =>
          parallel.invoke parens callee arguments
  | _, _, .function decls => parallel.close decls
  | _, _, .get objects names =>
      parallel.bind (Parallel.expr objects) fun object => parallel.getProperty names object
  | _, _, .set objects names values => by
      refine parallel.bind (Parallel.expr objects) fun object => ?_
      refine parallel.bind (parallel.receiver names object) fun id => ?_
      refine parallel.bind (Parallel.expr values) fun value => ?_
      rw [parallel.lexeme names]
      exact parallel.bind (parallel.setField id _ value) fun _ => parallel.pure value
  | _, _, .this names => parallel.lookUp names

theorem Parallel.exprs : ∀ {es es' : List Expr}, Exprs.Like like es es' →
    related (exprs alarm ctx es) (exprs alarm' ctx' es')
  | _, _, .nil => parallel.pure []
  | _, _, .cons head tail =>
      parallel.bind (Parallel.expr head) fun _ =>
        parallel.bind (Parallel.exprs tail) fun _ => parallel.pure _

theorem Parallel.stmt : ∀ {s s' : Stmt}, Stmt.Like like s s' →
    related (stmt alarm ctx s) (stmt alarm' ctx' s')
  | _, _, .expression values => parallel.bind (Parallel.expr values) fun _ => parallel.pure _
  | _, _, .print values =>
      parallel.bind (Parallel.expr values) fun value =>
        parallel.bind (parallel.print value) fun _ => parallel.pure _
  | _, _, .var names => parallel.bind (parallel.declare names .nil) fun _ => parallel.pure _
  | _, _, .varInitial names initials =>
      parallel.bind (Parallel.expr initials) fun value =>
        parallel.bind (parallel.declare names value) fun _ => parallel.pure _
  | _, _, .block bodies =>
      parallel.bind parallel.capture fun here => parallel.within here (Parallel.stmts bodies)
  | _, _, .branch conditions thens => by
      refine parallel.bind (Parallel.expr conditions) fun condition => ?_
      split
      · exact Parallel.stmt thens
      · exact parallel.pure _
  | _, _, .branchElse conditions thens elses => by
      refine parallel.bind (Parallel.expr conditions) fun condition => ?_
      split
      · exact Parallel.stmt thens
      · exact Parallel.stmt elses
  | _, _, .loop conditions bodies => by
      unfold Guarded.stmt
      exact parallel.repeatWhile (parallel.map _ (Parallel.expr conditions))
        (Parallel.stmt bodies)
  | _, _, .function names decls =>
      parallel.bind (parallel.close decls) fun value =>
        parallel.bind (parallel.declare names value) fun _ => parallel.pure _
  | _, _, .ret keywords => parallel.pure _
  | _, _, .retValue keywords values =>
      parallel.bind (Parallel.expr values) fun value => parallel.pure _
  | _, _, .classDecl names tokens receivers fieldDecls methodDecls => by
      refine parallel.bind (parallel.declare names .nil) fun _ => ?_
      refine parallel.bind (Parallel.fields fieldDecls Table.empty) fun members => ?_
      refine parallel.bind parallel.capture fun here => ?_
      refine parallel.bind (parallel.addMethods here members methodDecls) fun members => ?_
      refine parallel.bind (parallel.addClass tokens receivers members) fun made => ?_
      exact parallel.bind (parallel.store names (.class made)) fun _ => parallel.pure _
  | _, _, .switch ids keywords subjects chains => by
      unfold Guarded.stmt
      rw [switch_eq, switch_eq]
      refine parallel.bind parallel.capture fun here => parallel.within here ?_
      refine parallel.bind (Parallel.expr subjects) fun value => ?_
      exact parallel.bind (parallel.declareHidden ids _ _ value) fun _ => Parallel.chain chains

theorem Parallel.stmts : ∀ {ss ss' : List Stmt}, Stmts.Like like ss ss' →
    related (stmts alarm ctx ss) (stmts alarm' ctx' ss')
  | _, _, .nil => parallel.pure _
  | _, _, .cons head tail => by
      refine parallel.bind (Parallel.stmt head) fun flow => ?_
      cases flow with
      | normal => exact Parallel.stmts tail
      | returned value => exact parallel.pure _

theorem Parallel.chain : ∀ {hidden keyword hidden' keyword' : Token} {arms arms' : Option Stmt},
    Chain.Like like hidden keyword hidden' keyword' arms arms' →
      related (chain alarm ctx arms) (chain alarm' ctx' arms')
  | _, _, _, _, _, _, .nil => parallel.pure _
  | _, _, _, _, _, _, .default actions bare bare' => Parallel.stmt actions
  | _, _, _, _, _, _, .arm ids patterns actions bare bare' rests => by
      rw [arm_eq, arm_eq]
      refine parallel.bind (parallel.lookUpHidden ids _ _) fun left => ?_
      refine parallel.bind (Parallel.expr patterns) fun right => ?_
      split
      · exact Parallel.stmt actions
      · exact Parallel.chain rests

theorem Parallel.fields : ∀ {decls decls' : List FieldDecl}, Fields.Like like decls decls' →
    ∀ members, related (fields alarm ctx members decls) (fields alarm' ctx' members decls')
  | _, _, .nil, members => parallel.pure members
  | _, _, .cons names tail, members => by
      unfold Guarded.fields
      rw [parallel.lexeme names]
      exact Parallel.fields tail _
  | _, _, .consInitial names initials tail, members => by
      unfold Guarded.fields
      rw [parallel.lexeme names]
      exact parallel.bind (Parallel.expr initials) fun value => Parallel.fields tail _

end

/-- The bodies of functions, if calls keep the relation as well. -/
theorem Parallel.body
    (deeper : ∀ {x y : Exec Flow}, related x y → related (deeper x) (deeper y))
    (bindParams : ∀ {params params' : List Param}, List.Forall₂ (Param.Like like) params params' →
      ∀ arguments, related
        (modify fun m => { m with
          environment := bindParams ctx.bindings m.environment params arguments })
        (modify fun m => { m with
          environment := bindParams ctx'.bindings m.environment params' arguments }))
    {f g : FunctionObject} (decls : FunctionDecl.Like like f.decl g.decl)
    (closures : f.closure = g.closure) (receivers : f.receiver = g.receiver)
    (arguments : List Value) :
    related (body alarm ctx f arguments) (body alarm' ctx' g arguments) := by
  have initializers : f.isInitializer = g.isInitializer := by
    unfold FunctionObject.isInitializer
    rw [decls.kind_eq]
  unfold Guarded.body
  rw [initializers, receivers, closures]
  generalize f.decl = one at decls ⊢
  generalize g.decl = two at decls ⊢
  cases decls with
  | mk names parameters bodies =>
      refine parallel.bind (deeper (parallel.within _ ?_)) fun flow => ?_
      · exact parallel.bind (bindParams parameters arguments) fun _ => parallel.stmts bodies
      · split <;> exact parallel.pure _

end

end Lox.Guarded
