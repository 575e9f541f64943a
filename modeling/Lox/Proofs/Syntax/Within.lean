import Lox.Proofs.Syntax.Likeness
import Lox.Proofs.Syntax.Regular

set_option autoImplicit false

/-! Trees that are alike are alike also if only the nodes are compared that occur in them. -/

namespace Lox

open Grammar.Rules (hiddenName armTest)

/-- A likeness that knows only some nodes. -/
def Likeness.within (like : Likeness) (own : NodeId → Prop) : Likeness where
  token := like.token
  named id name other otherName := own id ∧ like.named id name other otherName
  node id other := own id ∧ like.node id other
  hidden id other := own id ∧ like.hidden id other

variable {like : Likeness} {own : NodeId → Prop}

theorem Params.Like.within {params params' : List Param}
    (parameters : List.Forall₂ (Param.Like like) params params')
    (all : ∀ id ∈ Nodes.params params, own id) :
    List.Forall₂ (Param.Like (like.within own)) params params' := by
  induction parameters with
  | nil => exact .nil
  | cons head _ ih =>
      have parts := List.forall_mem_cons.mp all
      exact .cons ⟨parts.1, head⟩ (ih parts.2)

theorem Nodes.forall_mem_branch {condition : Expr} {action : Stmt} {rest : Option Stmt}
    (all : ∀ id ∈ Nodes.stmt (.branch condition action rest), own id) :
    (∀ id ∈ Nodes.expr condition, own id) ∧ (∀ id ∈ Nodes.stmt action, own id) ∧
      ∀ id ∈ Nodes.stmts rest.toList, own id := by
  cases rest with
  | none =>
      have parts := List.forall_mem_append.mp all
      exact ⟨parts.1, parts.2, nofun⟩
  | some other =>
      have parts := List.forall_mem_append.mp all
      have first := List.forall_mem_append.mp parts.1
      refine ⟨first.1, first.2, ?_⟩
      rw [Option.toList_some, Nodes.stmts, Nodes.stmts, List.append_nil]
      exact parts.2

mutual

theorem Expr.Like.within : ∀ {e e' : Expr}, Expr.Like like e e' → (∀ id ∈ Nodes.expr e, own id) →
    Expr.Like (like.within own) e e'
  | _, _, .literal value, _ => .literal value
  | _, _, .unary operators rights, all => .unary operators (rights.within all)
  | _, _, .binary lefts operators rights, all =>
      have parts := List.forall_mem_append.mp all
      .binary (lefts.within parts.1) operators (rights.within parts.2)
  | _, _, .logical lefts operators rights, all =>
      have parts := List.forall_mem_append.mp all
      .logical (lefts.within parts.1) operators (rights.within parts.2)
  | _, _, .ternary conditions thens elses, all =>
      have parts := List.forall_mem_append.mp all
      have first := List.forall_mem_append.mp parts.1
      .ternary (conditions.within first.1) (thens.within first.2) (elses.within parts.2)
  | _, _, .grouping inners, all => .grouping (inners.within all)
  | _, _, .name names, all => .name ⟨all _ List.mem_cons_self, names⟩
  | _, _, .assign names values, all =>
      have parts := List.forall_mem_append.mp all
      .assign ⟨parts.2 _ List.mem_cons_self, names⟩ (values.within parts.1)
  | _, _, .call callees parens values, all =>
      have parts := List.forall_mem_append.mp all
      .call (callees.within parts.1) parens (values.within parts.2)
  | _, _, .function decls, all => .function (decls.within all)
  | _, _, .get objects names, all => .get (objects.within all) names
  | _, _, .set objects names values, all =>
      have parts := List.forall_mem_append.mp all
      .set (objects.within parts.2) names (values.within parts.1)
  | _, _, .this names, all => .this ⟨all _ List.mem_cons_self, names⟩

theorem Exprs.Like.within : ∀ {es es' : List Expr}, Exprs.Like like es es' →
    (∀ id ∈ Nodes.exprs es, own id) → Exprs.Like (like.within own) es es'
  | _, _, .nil, _ => .nil
  | _, _, .cons head tail, all =>
      have parts := List.forall_mem_append.mp all
      .cons (head.within parts.1) (tail.within parts.2)

theorem Stmt.Like.within : ∀ {s s' : Stmt}, Stmt.Like like s s' → (∀ id ∈ Nodes.stmt s, own id) →
    Stmt.Like (like.within own) s s'
  | _, _, .expression values, all => .expression (values.within all)
  | _, _, .print values, all => .print (values.within all)
  | _, _, .var names, all => .var ⟨all _ List.mem_cons_self, names⟩
  | _, _, .varInitial names initials, all =>
      have parts := List.forall_mem_cons.mp all
      .varInitial ⟨parts.1, names⟩ (initials.within parts.2)
  | _, _, .block bodies, all => .block (bodies.within all)
  | _, _, .branch conditions thens, all =>
      have parts := List.forall_mem_append.mp all
      .branch (conditions.within parts.1) (thens.within parts.2)
  | _, _, .branchElse conditions thens elses, all =>
      have parts := List.forall_mem_append.mp all
      have first := List.forall_mem_append.mp parts.1
      .branchElse (conditions.within first.1) (thens.within first.2) (elses.within parts.2)
  | _, _, .loop conditions bodies, all =>
      have parts := List.forall_mem_append.mp all
      .loop (conditions.within parts.1) (bodies.within parts.2)
  | _, _, .function names decls, all =>
      have parts := List.forall_mem_cons.mp all
      .function ⟨parts.1, names⟩ (decls.within parts.2)
  | _, _, .ret keywords, _ => .ret keywords
  | _, _, .retValue keywords values, all => .retValue keywords (values.within all)
  | _, _, .classDecl names tokens receivers fieldDecls methodDecls, all =>
      have parts := List.forall_mem_cons.mp all
      have inner := List.forall_mem_cons.mp parts.2
      have members := List.forall_mem_append.mp inner.2
      .classDecl ⟨parts.1, names⟩ tokens ⟨inner.1, receivers⟩ (fieldDecls.within members.1)
        (methodDecls.within members.2)
  | _, _, .switch ids keywords subjects chains, all =>
      have parts := List.forall_mem_append.mp all
      have first := List.forall_mem_cons.mp parts.1
      .switch ⟨first.1, ids⟩ keywords (subjects.within first.2) (chains.within parts.2)

theorem Stmts.Like.within : ∀ {ss ss' : List Stmt}, Stmts.Like like ss ss' →
    (∀ id ∈ Nodes.stmts ss, own id) → Stmts.Like (like.within own) ss ss'
  | _, _, .nil, _ => .nil
  | _, _, .cons head tail, all =>
      have parts := List.forall_mem_append.mp all
      .cons (head.within parts.1) (tail.within parts.2)

theorem Chain.Like.within :
    ∀ {hidden keyword hidden' keyword' : Token} {chain chain' : Option Stmt},
    Chain.Like like hidden keyword hidden' keyword' chain chain' →
      (∀ id ∈ Nodes.stmts chain.toList, own id) →
        Chain.Like (like.within own) hidden keyword hidden' keyword' chain chain'
  | _, _, _, _, _, _, .nil, _ => .nil
  | _, _, _, _, _, _, .default actions bare bare', all =>
      .default (actions.within (List.forall_mem_append.mp all).1) bare bare'
  | _, _, _, _, _, _, .arm ids patterns actions bare bare' rests, all => by
      have arm := Nodes.forall_mem_branch (List.forall_mem_append.mp all).1
      have test := List.forall_mem_cons.mp arm.1
      exact .arm ⟨test.1, ids⟩ (patterns.within test.2) (actions.within arm.2.1) bare bare'
        (rests.within arm.2.2)

theorem FunctionDecl.Like.within : ∀ {decl decl' : FunctionDecl},
    FunctionDecl.Like like decl decl' → (∀ id ∈ Nodes.function decl, own id) →
      FunctionDecl.Like (like.within own) decl decl'
  | _, _, .mk names parameters bodies, all =>
      have parts := List.forall_mem_append.mp all
      .mk names (Params.Like.within parameters parts.1) (bodies.within parts.2)

theorem Functions.Like.within : ∀ {decls decls' : List FunctionDecl},
    Functions.Like like decls decls' → (∀ id ∈ Nodes.functions decls, own id) →
      Functions.Like (like.within own) decls decls'
  | _, _, .nil, _ => .nil
  | _, _, .cons head tail, all =>
      have parts := List.forall_mem_append.mp all
      .cons (head.within parts.1) (tail.within parts.2)

theorem Fields.Like.within : ∀ {decls decls' : List FieldDecl},
    Fields.Like like decls decls' → (∀ id ∈ Nodes.fields decls, own id) →
      Fields.Like (like.within own) decls decls'
  | _, _, .nil, _ => .nil
  | _, _, .cons names tail, all => .cons names (tail.within all)
  | _, _, .consInitial names initials tail, all =>
      have parts := List.forall_mem_append.mp all
      .consInitial names (initials.within parts.1) (tail.within parts.2)

end
end Lox
