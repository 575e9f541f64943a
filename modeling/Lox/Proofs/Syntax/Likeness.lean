import Lox.Grammar.Statement
import Lox.Proofs.Scope.Path
import Mathlib.Data.List.Forall2
import Mathlib.Data.Option.Basic

set_option autoImplicit false

/-! Trees that are alike: of one shape, with tokens and nodes that correspond. What corresponds is left
open, so that the same notion serves for trees that were read from different places, and for trees whose
nodes stand for the same variables. A switch that has been written out is alike as a whole, because the
name of its hidden variable holds a node number. -/

namespace Lox

/-- What corresponds in two trees: tokens, nodes together with their names, nodes that have no name, and
the nodes of hidden variables. -/
structure Likeness where
  token : Token → Token → Prop
  named : NodeId → Token → NodeId → Token → Prop
  node : NodeId → NodeId → Prop
  hidden : NodeId → NodeId → Prop

/-- A likeness that relates no more than another. -/
structure Likeness.Le (one two : Likeness) : Prop where
  token : ∀ t u, one.token t u → two.token t u
  named : ∀ id name other otherName,
    one.named id name other otherName → two.named id name other otherName
  node : ∀ id other, one.node id other → two.node id other
  hidden : ∀ id other, one.hidden id other → two.hidden id other

/-- A likeness of equal tokens and nodes. -/
structure Likeness.Exact (like : Likeness) : Prop where
  token : ∀ t u, like.token t u → t = u
  named : ∀ id name other otherName,
    like.named id name other otherName → id = other ∧ name = otherName
  node : ∀ id other, like.node id other → id = other
  hidden : ∀ id other, like.hidden id other → id = other

def Param.Like (like : Likeness) (one two : Param) : Prop :=
  like.named one.id one.name two.id two.name

open Grammar.Rules (hiddenName armTest)

mutual

inductive Expr.Like (like : Likeness) : Expr → Expr → Prop
  | literal (value : Literal) : Expr.Like like (.literal value) (.literal value)
  | unary {operator operator' : Token} {right right' : Expr}
      (operators : like.token operator operator') (rights : Expr.Like like right right') :
      Expr.Like like (.unary operator right) (.unary operator' right')
  | binary {left left' right right' : Expr} {operator operator' : Token}
      (lefts : Expr.Like like left left') (operators : like.token operator operator')
      (rights : Expr.Like like right right') :
      Expr.Like like (.binary left operator right) (.binary left' operator' right')
  | logical {left left' right right' : Expr} {operator operator' : Token}
      (lefts : Expr.Like like left left') (operators : like.token operator operator')
      (rights : Expr.Like like right right') :
      Expr.Like like (.logical left operator right) (.logical left' operator' right')
  | ternary {condition condition' thenBranch thenBranch' elseBranch elseBranch' : Expr}
      (conditions : Expr.Like like condition condition')
      (thens : Expr.Like like thenBranch thenBranch')
      (elses : Expr.Like like elseBranch elseBranch') :
      Expr.Like like (.ternary condition thenBranch elseBranch)
        (.ternary condition' thenBranch' elseBranch')
  | grouping {inner inner' : Expr} (inners : Expr.Like like inner inner') :
      Expr.Like like (.grouping inner) (.grouping inner')
  | name {id id' : NodeId} {name name' : Token} (names : like.named id name id' name') :
      Expr.Like like (.variable id name) (.variable id' name')
  | assign {id id' : NodeId} {name name' : Token} {value value' : Expr}
      (names : like.named id name id' name') (values : Expr.Like like value value') :
      Expr.Like like (.assign id name value) (.assign id' name' value')
  | call {callee callee' : Expr} {paren paren' : Token} {arguments arguments' : List Expr}
      (callees : Expr.Like like callee callee') (parens : like.token paren paren')
      (values : Exprs.Like like arguments arguments') :
      Expr.Like like (.call callee paren arguments) (.call callee' paren' arguments')
  | function {decl decl' : FunctionDecl} (decls : FunctionDecl.Like like decl decl') :
      Expr.Like like (.function decl) (.function decl')
  | get {object object' : Expr} {name name' : Token} (objects : Expr.Like like object object')
      (names : like.token name name') : Expr.Like like (.get object name) (.get object' name')
  | set {object object' value value' : Expr} {name name' : Token}
      (objects : Expr.Like like object object') (names : like.token name name')
      (values : Expr.Like like value value') :
      Expr.Like like (.set object name value) (.set object' name' value')
  | this {id id' : NodeId} {keyword keyword' : Token}
      (names : like.named id keyword id' keyword') :
      Expr.Like like (.this id keyword) (.this id' keyword')

inductive Exprs.Like (like : Likeness) : List Expr → List Expr → Prop
  | nil : Exprs.Like like [] []
  | cons {e e' : Expr} {rest rest' : List Expr} (head : Expr.Like like e e')
      (tail : Exprs.Like like rest rest') : Exprs.Like like (e :: rest) (e' :: rest')

inductive Stmt.Like (like : Likeness) : Stmt → Stmt → Prop
  | expression {value value' : Expr} (values : Expr.Like like value value') :
      Stmt.Like like (.expression value) (.expression value')
  | print {value value' : Expr} (values : Expr.Like like value value') :
      Stmt.Like like (.print value) (.print value')
  | var {id id' : NodeId} {name name' : Token} (names : like.named id name id' name') :
      Stmt.Like like (.var id name none) (.var id' name' none)
  | varInitial {id id' : NodeId} {name name' : Token} {initial initial' : Expr}
      (names : like.named id name id' name') (initials : Expr.Like like initial initial') :
      Stmt.Like like (.var id name (some initial)) (.var id' name' (some initial'))
  | block {body body' : List Stmt} (bodies : Stmts.Like like body body') :
      Stmt.Like like (.block body) (.block body')
  | branch {condition condition' : Expr} {thenBranch thenBranch' : Stmt}
      (conditions : Expr.Like like condition condition')
      (thens : Stmt.Like like thenBranch thenBranch') :
      Stmt.Like like (.branch condition thenBranch none) (.branch condition' thenBranch' none)
  | branchElse {condition condition' : Expr} {thenBranch thenBranch' elseBranch elseBranch' : Stmt}
      (conditions : Expr.Like like condition condition')
      (thens : Stmt.Like like thenBranch thenBranch')
      (elses : Stmt.Like like elseBranch elseBranch') :
      Stmt.Like like (.branch condition thenBranch (some elseBranch))
        (.branch condition' thenBranch' (some elseBranch'))
  | loop {condition condition' : Expr} {body body' : Stmt}
      (conditions : Expr.Like like condition condition') (bodies : Stmt.Like like body body') :
      Stmt.Like like (.loop condition body) (.loop condition' body')
  | function {id id' : NodeId} {name name' : Token} {decl decl' : FunctionDecl}
      (names : like.named id name id' name') (decls : FunctionDecl.Like like decl decl') :
      Stmt.Like like (.function id name decl) (.function id' name' decl')
  | ret {keyword keyword' : Token} (keywords : like.token keyword keyword') :
      Stmt.Like like (.ret keyword none) (.ret keyword' none)
  | retValue {keyword keyword' : Token} {value value' : Expr}
      (keywords : like.token keyword keyword') (values : Expr.Like like value value') :
      Stmt.Like like (.ret keyword (some value)) (.ret keyword' (some value'))
  | classDecl {id id' : NodeId} {name name' : Token} {thisId thisId' : NodeId}
      {fields fields' : List FieldDecl} {methods methods' : List FunctionDecl}
      (names : like.named id name id' name') (tokens : like.token name name')
      (receivers : like.node thisId thisId') (fieldDecls : Fields.Like like fields fields')
      (methodDecls : Functions.Like like methods methods') :
      Stmt.Like like (.class id name thisId fields methods)
        (.class id' name' thisId' fields' methods')
  | switch {id id' : NodeId} {keyword keyword' : Token} {subject subject' : Expr}
      {chain chain' : Option Stmt} (ids : like.hidden id id')
      (keywords : like.token keyword keyword') (subjects : Expr.Like like subject subject')
      (chains : Chain.Like like (hiddenName id keyword) keyword (hiddenName id' keyword') keyword'
        chain chain') :
      Stmt.Like like (.block (.var id (hiddenName id keyword) (some subject) :: chain.toList))
        (.block (.var id' (hiddenName id' keyword') (some subject') :: chain'.toList))

inductive Stmts.Like (like : Likeness) : List Stmt → List Stmt → Prop
  | nil : Stmts.Like like [] []
  | cons {s s' : Stmt} {rest rest' : List Stmt} (head : Stmt.Like like s s')
      (tail : Stmts.Like like rest rest') : Stmts.Like like (s :: rest) (s' :: rest')

/-- The comparisons of a switch with its arms, where actions declare nothing. -/
inductive Chain.Like (like : Likeness) :
    Token → Token → Token → Token → Option Stmt → Option Stmt → Prop
  | nil {hidden keyword hidden' keyword' : Token} :
      Chain.Like like hidden keyword hidden' keyword' none none
  | default {hidden keyword hidden' keyword' : Token} {action action' : Stmt}
      (actions : Stmt.Like like action action') (bare : action.declared = [])
      (bare' : action'.declared = []) :
      Chain.Like like hidden keyword hidden' keyword' (some action) (some action')
  | arm {hidden keyword hidden' keyword' : Token} {id id' : NodeId} {pattern pattern' : Expr}
      {action action' : Stmt} {rest rest' : Option Stmt} (ids : like.hidden id id')
      (patterns : Expr.Like like pattern pattern') (actions : Stmt.Like like action action')
      (bare : action.declared = []) (bare' : action'.declared = [])
      (rests : Chain.Like like hidden keyword hidden' keyword' rest rest') :
      Chain.Like like hidden keyword hidden' keyword'
        (some (.branch (armTest id hidden keyword pattern) action rest))
        (some (.branch (armTest id' hidden' keyword' pattern') action' rest'))

inductive FunctionDecl.Like (like : Likeness) : FunctionDecl → FunctionDecl → Prop
  | mk {name name' : Option Token} {kind : FunctionKind} {params params' : List Param}
      {body body' : List Stmt} (names : Option.Rel like.token name name')
      (parameters : List.Forall₂ (Param.Like like) params params')
      (bodies : Stmts.Like like body body') :
      FunctionDecl.Like like (.mk name kind params body) (.mk name' kind params' body')

inductive Functions.Like (like : Likeness) : List FunctionDecl → List FunctionDecl → Prop
  | nil : Functions.Like like [] []
  | cons {decl decl' : FunctionDecl} {rest rest' : List FunctionDecl}
      (head : FunctionDecl.Like like decl decl') (tail : Functions.Like like rest rest') :
      Functions.Like like (decl :: rest) (decl' :: rest')

inductive Fields.Like (like : Likeness) : List FieldDecl → List FieldDecl → Prop
  | nil : Fields.Like like [] []
  | cons {name name' : Token} {rest rest' : List FieldDecl} (names : like.token name name')
      (tail : Fields.Like like rest rest') :
      Fields.Like like (.mk name none :: rest) (.mk name' none :: rest')
  | consInitial {name name' : Token} {initial initial' : Expr} {rest rest' : List FieldDecl}
      (names : like.token name name') (initials : Expr.Like like initial initial')
      (tail : Fields.Like like rest rest') :
      Fields.Like like (.mk name (some initial) :: rest) (.mk name' (some initial') :: rest')

end

theorem FunctionDecl.Like.kind_eq {like : Likeness} {decl decl' : FunctionDecl}
    (alike : FunctionDecl.Like like decl decl') : decl.kind = decl'.kind := by
  cases alike
  rfl

section

variable {one two : Likeness}

theorem Likeness.Le.name (le : one.Le two) {name name' : Option Token}
    (names : Option.Rel one.token name name') : Option.Rel two.token name name' := by
  cases names with
  | none => exact .none
  | some same => exact .some (le.token _ _ same)

mutual

theorem Expr.Like.mono (le : one.Le two) : ∀ {e e' : Expr}, Expr.Like one e e' → Expr.Like two e e'
  | _, _, .literal value => .literal value
  | _, _, .unary operators rights => .unary (le.token _ _ operators) (rights.mono le)
  | _, _, .binary lefts operators rights =>
      .binary (lefts.mono le) (le.token _ _ operators) (rights.mono le)
  | _, _, .logical lefts operators rights =>
      .logical (lefts.mono le) (le.token _ _ operators) (rights.mono le)
  | _, _, .ternary conditions thens elses =>
      .ternary (conditions.mono le) (thens.mono le) (elses.mono le)
  | _, _, .grouping inners => .grouping (inners.mono le)
  | _, _, .name names => .name (le.named _ _ _ _ names)
  | _, _, .assign names values => .assign (le.named _ _ _ _ names) (values.mono le)
  | _, _, .call callees parens values =>
      .call (callees.mono le) (le.token _ _ parens) (values.mono le)
  | _, _, .function decls => .function (decls.mono le)
  | _, _, .get objects names => .get (objects.mono le) (le.token _ _ names)
  | _, _, .set objects names values =>
      .set (objects.mono le) (le.token _ _ names) (values.mono le)
  | _, _, .this names => .this (le.named _ _ _ _ names)

theorem Exprs.Like.mono (le : one.Le two) : ∀ {es es' : List Expr},
    Exprs.Like one es es' → Exprs.Like two es es'
  | _, _, .nil => .nil
  | _, _, .cons head tail => .cons (head.mono le) (tail.mono le)

theorem Stmt.Like.mono (le : one.Le two) : ∀ {s s' : Stmt}, Stmt.Like one s s' → Stmt.Like two s s'
  | _, _, .expression values => .expression (values.mono le)
  | _, _, .print values => .print (values.mono le)
  | _, _, .var names => .var (le.named _ _ _ _ names)
  | _, _, .varInitial names initials => .varInitial (le.named _ _ _ _ names) (initials.mono le)
  | _, _, .block bodies => .block (bodies.mono le)
  | _, _, .branch conditions thens => .branch (conditions.mono le) (thens.mono le)
  | _, _, .branchElse conditions thens elses =>
      .branchElse (conditions.mono le) (thens.mono le) (elses.mono le)
  | _, _, .loop conditions bodies => .loop (conditions.mono le) (bodies.mono le)
  | _, _, .function names decls => .function (le.named _ _ _ _ names) (decls.mono le)
  | _, _, .ret keywords => .ret (le.token _ _ keywords)
  | _, _, .retValue keywords values => .retValue (le.token _ _ keywords) (values.mono le)
  | _, _, .classDecl names tokens receivers fieldDecls methodDecls =>
      .classDecl (le.named _ _ _ _ names) (le.token _ _ tokens) (le.node _ _ receivers)
        (fieldDecls.mono le) (methodDecls.mono le)
  | _, _, .switch ids keywords subjects chains =>
      .switch (le.hidden _ _ ids) (le.token _ _ keywords) (subjects.mono le) (chains.mono le)

theorem Stmts.Like.mono (le : one.Le two) : ∀ {ss ss' : List Stmt},
    Stmts.Like one ss ss' → Stmts.Like two ss ss'
  | _, _, .nil => .nil
  | _, _, .cons head tail => .cons (head.mono le) (tail.mono le)

theorem Chain.Like.mono (le : one.Le two) :
    ∀ {hidden keyword hidden' keyword' : Token} {chain chain' : Option Stmt},
    Chain.Like one hidden keyword hidden' keyword' chain chain' →
      Chain.Like two hidden keyword hidden' keyword' chain chain'
  | _, _, _, _, _, _, .nil => .nil
  | _, _, _, _, _, _, .default actions bare bare' => .default (actions.mono le) bare bare'
  | _, _, _, _, _, _, .arm ids patterns actions bare bare' rests =>
      .arm (le.hidden _ _ ids) (patterns.mono le) (actions.mono le) bare bare' (rests.mono le)

theorem FunctionDecl.Like.mono (le : one.Le two) : ∀ {decl decl' : FunctionDecl},
    FunctionDecl.Like one decl decl' → FunctionDecl.Like two decl decl'
  | _, _, .mk names parameters bodies =>
      .mk (le.name names) (parameters.imp fun _ _ => le.named _ _ _ _) (bodies.mono le)

theorem Functions.Like.mono (le : one.Le two) : ∀ {decls decls' : List FunctionDecl},
    Functions.Like one decls decls' → Functions.Like two decls decls'
  | _, _, .nil => .nil
  | _, _, .cons head tail => .cons (head.mono le) (tail.mono le)

theorem Fields.Like.mono (le : one.Le two) : ∀ {decls decls' : List FieldDecl},
    Fields.Like one decls decls' → Fields.Like two decls decls'
  | _, _, .nil => .nil
  | _, _, .cons names tail => .cons (le.token _ _ names) (tail.mono le)
  | _, _, .consInitial names initials tail =>
      .consInitial (le.token _ _ names) (initials.mono le) (tail.mono le)

end

end

section

variable {like : Likeness}

theorem Likeness.Exact.name (exact : like.Exact) {name name' : Option Token}
    (names : Option.Rel like.token name name') : name = name' := by
  cases names with
  | none => rfl
  | some same => rw [exact.token _ _ same]

theorem Likeness.Exact.params (exact : like.Exact) {params params' : List Param}
    (parameters : List.Forall₂ (Param.Like like) params params') : params = params' := by
  induction parameters with
  | nil => rfl
  | @cons param param' _ _ head _ ih =>
      obtain ⟨ids, names⟩ := exact.named _ _ _ _ head
      cases param
      cases param'
      cases ids
      cases names
      rw [ih]

theorem switch_eq {id id' : NodeId} {keyword keyword' : Token} {subject subject' : Expr}
    {chain chain' : Option Stmt} (ids : id = id') (keywords : keyword = keyword')
    (subjects : subject = subject') (chains : chain = chain') :
    Stmt.block (.var id (hiddenName id keyword) (some subject) :: chain.toList) =
      .block (.var id' (hiddenName id' keyword') (some subject') :: chain'.toList) := by
  subst ids keywords subjects chains
  rfl

theorem arm_eq {id id' : NodeId} {hidden hidden' keyword keyword' : Token} {pattern pattern' : Expr}
    {action action' : Stmt} {rest rest' : Option Stmt} (ids : id = id') (hiddens : hidden = hidden')
    (keywords : keyword = keyword') (patterns : pattern = pattern') (actions : action = action')
    (rests : rest = rest') :
    some (Stmt.branch (armTest id hidden keyword pattern) action rest) =
      some (.branch (armTest id' hidden' keyword' pattern') action' rest') := by
  subst ids hiddens keywords patterns actions rests
  rfl

mutual

/-- Trees that are alike in all tokens and nodes are equal. -/
theorem Expr.Like.eq (exact : like.Exact) : ∀ {e e' : Expr}, Expr.Like like e e' → e = e'
  | _, _, .literal _ => rfl
  | _, _, .unary operators rights =>
      congrArg₂ Expr.unary (exact.token _ _ operators) (rights.eq exact)
  | _, _, .binary lefts operators rights =>
      congr (congrArg₂ Expr.binary (lefts.eq exact) (exact.token _ _ operators)) (rights.eq exact)
  | _, _, .logical lefts operators rights =>
      congr (congrArg₂ Expr.logical (lefts.eq exact) (exact.token _ _ operators)) (rights.eq exact)
  | _, _, .ternary conditions thens elses =>
      congr (congrArg₂ Expr.ternary (conditions.eq exact) (thens.eq exact)) (elses.eq exact)
  | _, _, .grouping inners => congrArg Expr.grouping (inners.eq exact)
  | _, _, .name names =>
      congrArg₂ Expr.variable (exact.named _ _ _ _ names).1 (exact.named _ _ _ _ names).2
  | _, _, .assign names values =>
      congr (congrArg₂ Expr.assign (exact.named _ _ _ _ names).1 (exact.named _ _ _ _ names).2)
        (values.eq exact)
  | _, _, .call callees parens values =>
      congr (congrArg₂ Expr.call (callees.eq exact) (exact.token _ _ parens)) (values.eq exact)
  | _, _, .function decls => congrArg Expr.function (decls.eq exact)
  | _, _, .get objects names => congrArg₂ Expr.get (objects.eq exact) (exact.token _ _ names)
  | _, _, .set objects names values =>
      congr (congrArg₂ Expr.set (objects.eq exact) (exact.token _ _ names)) (values.eq exact)
  | _, _, .this names =>
      congrArg₂ Expr.this (exact.named _ _ _ _ names).1 (exact.named _ _ _ _ names).2

theorem Exprs.Like.eq (exact : like.Exact) : ∀ {es es' : List Expr},
    Exprs.Like like es es' → es = es'
  | _, _, .nil => rfl
  | _, _, .cons head tail => congrArg₂ List.cons (head.eq exact) (tail.eq exact)

theorem Stmt.Like.eq (exact : like.Exact) : ∀ {s s' : Stmt}, Stmt.Like like s s' → s = s'
  | _, _, .expression values => congrArg Stmt.expression (values.eq exact)
  | _, _, .print values => congrArg Stmt.print (values.eq exact)
  | _, _, .var names =>
      congrArg₂ (Stmt.var · · none) (exact.named _ _ _ _ names).1 (exact.named _ _ _ _ names).2
  | _, _, .varInitial names initials =>
      congr (congrArg₂ Stmt.var (exact.named _ _ _ _ names).1 (exact.named _ _ _ _ names).2)
        (congrArg some (initials.eq exact))
  | _, _, .block bodies => congrArg Stmt.block (bodies.eq exact)
  | _, _, .branch conditions thens =>
      congrArg₂ (Stmt.branch · · none) (conditions.eq exact) (thens.eq exact)
  | _, _, .branchElse conditions thens elses =>
      congr (congrArg₂ Stmt.branch (conditions.eq exact) (thens.eq exact))
        (congrArg some (elses.eq exact))
  | _, _, .loop conditions bodies =>
      congrArg₂ Stmt.loop (conditions.eq exact) (bodies.eq exact)
  | _, _, .function names decls =>
      congr (congrArg₂ Stmt.function (exact.named _ _ _ _ names).1 (exact.named _ _ _ _ names).2)
        (decls.eq exact)
  | _, _, .ret keywords => congrArg (Stmt.ret · none) (exact.token _ _ keywords)
  | _, _, .retValue keywords values =>
      congrArg₂ (fun keyword value => Stmt.ret keyword (some value)) (exact.token _ _ keywords)
        (values.eq exact)
  | _, _, .classDecl names _ receivers fieldDecls methodDecls =>
      congr (congr (congr (congrArg₂ Stmt.class (exact.named _ _ _ _ names).1
        (exact.named _ _ _ _ names).2) (exact.node _ _ receivers)) (fieldDecls.eq exact))
        (methodDecls.eq exact)
  | _, _, .switch ids keywords subjects chains =>
      switch_eq (exact.hidden _ _ ids) (exact.token _ _ keywords) (subjects.eq exact)
        (chains.eq exact
          (congrArg₂ hiddenName (exact.hidden _ _ ids) (exact.token _ _ keywords))
          (exact.token _ _ keywords))

theorem Stmts.Like.eq (exact : like.Exact) : ∀ {ss ss' : List Stmt},
    Stmts.Like like ss ss' → ss = ss'
  | _, _, .nil => rfl
  | _, _, .cons head tail => congrArg₂ List.cons (head.eq exact) (tail.eq exact)

theorem Chain.Like.eq (exact : like.Exact) :
    ∀ {hidden keyword hidden' keyword' : Token} {chain chain' : Option Stmt},
      Chain.Like like hidden keyword hidden' keyword' chain chain' →
        hidden = hidden' → keyword = keyword' → chain = chain'
  | _, _, _, _, _, _, .nil, _, _ => rfl
  | _, _, _, _, _, _, .default actions _ _, _, _ => congrArg some (actions.eq exact)
  | _, _, _, _, _, _, .arm ids patterns actions _ _ rests, hiddens, keywords =>
      arm_eq (exact.hidden _ _ ids) hiddens keywords (patterns.eq exact) (actions.eq exact)
        (rests.eq exact hiddens keywords)

theorem FunctionDecl.Like.eq (exact : like.Exact) : ∀ {decl decl' : FunctionDecl},
    FunctionDecl.Like like decl decl' → decl = decl'
  | _, _, .mk names parameters bodies =>
      congr (congrArg₂ (FunctionDecl.mk · _) (exact.name names) (exact.params parameters))
        (bodies.eq exact)

theorem Functions.Like.eq (exact : like.Exact) : ∀ {decls decls' : List FunctionDecl},
    Functions.Like like decls decls' → decls = decls'
  | _, _, .nil => rfl
  | _, _, .cons head tail => congrArg₂ List.cons (head.eq exact) (tail.eq exact)

theorem Fields.Like.eq (exact : like.Exact) : ∀ {decls decls' : List FieldDecl},
    Fields.Like like decls decls' → decls = decls'
  | _, _, .nil => rfl
  | _, _, .cons names tail =>
      congrArg₂ (fun name rest => FieldDecl.mk name none :: rest) (exact.token _ _ names)
        (tail.eq exact)
  | _, _, .consInitial names initials tail =>
      congrArg₂ List.cons
        (congrArg₂ (fun name value => FieldDecl.mk name (some value)) (exact.token _ _ names)
          (initials.eq exact)) (tail.eq exact)

end

end

/-- A likeness of each token and node to itself. -/
structure Likeness.Reflexive (like : Likeness) : Prop where
  token : ∀ t, like.token t t
  named : ∀ id name, like.named id name id name
  node : ∀ id, like.node id id

section

variable {like : Likeness}

theorem Likeness.Reflexive.name (all : like.Reflexive) :
    ∀ name : Option Token, Option.Rel like.token name name
  | none => .none
  | some name => .some (all.token name)

mutual

theorem Expr.Like.refl (all : like.Reflexive) : ∀ e : Expr, Expr.Like like e e
  | .literal value => .literal value
  | .unary operator right => .unary (all.token operator) (Expr.Like.refl all right)
  | .binary left operator right =>
      .binary (Expr.Like.refl all left) (all.token operator) (Expr.Like.refl all right)
  | .logical left operator right =>
      .logical (Expr.Like.refl all left) (all.token operator) (Expr.Like.refl all right)
  | .ternary condition thenBranch elseBranch =>
      .ternary (Expr.Like.refl all condition) (Expr.Like.refl all thenBranch)
        (Expr.Like.refl all elseBranch)
  | .grouping inner => .grouping (Expr.Like.refl all inner)
  | .variable id name => .name (all.named id name)
  | .assign id name value => .assign (all.named id name) (Expr.Like.refl all value)
  | .call callee paren arguments =>
      .call (Expr.Like.refl all callee) (all.token paren) (Exprs.Like.refl all arguments)
  | .function decl => .function (FunctionDecl.Like.refl all decl)
  | .get object name => .get (Expr.Like.refl all object) (all.token name)
  | .set object name value =>
      .set (Expr.Like.refl all object) (all.token name) (Expr.Like.refl all value)
  | .this id keyword => .this (all.named id keyword)

theorem Exprs.Like.refl (all : like.Reflexive) : ∀ es : List Expr, Exprs.Like like es es
  | [] => .nil
  | e :: rest => .cons (Expr.Like.refl all e) (Exprs.Like.refl all rest)

theorem Stmt.Like.refl (all : like.Reflexive) : ∀ s : Stmt, Stmt.Like like s s
  | .expression value => .expression (Expr.Like.refl all value)
  | .print value => .print (Expr.Like.refl all value)
  | .var id name none => .var (all.named id name)
  | .var id name (some initial) => .varInitial (all.named id name) (Expr.Like.refl all initial)
  | .block body => .block (Stmts.Like.refl all body)
  | .branch condition thenBranch none =>
      .branch (Expr.Like.refl all condition) (Stmt.Like.refl all thenBranch)
  | .branch condition thenBranch (some elseBranch) =>
      .branchElse (Expr.Like.refl all condition) (Stmt.Like.refl all thenBranch)
        (Stmt.Like.refl all elseBranch)
  | .loop condition body => .loop (Expr.Like.refl all condition) (Stmt.Like.refl all body)
  | .function id name decl => .function (all.named id name) (FunctionDecl.Like.refl all decl)
  | .ret keyword none => .ret (all.token keyword)
  | .ret keyword (some value) => .retValue (all.token keyword) (Expr.Like.refl all value)
  | .class id name thisId fields methods =>
      .classDecl (all.named id name) (all.token name) (all.node thisId)
        (Fields.Like.refl all fields) (Functions.Like.refl all methods)

theorem Stmts.Like.refl (all : like.Reflexive) : ∀ ss : List Stmt, Stmts.Like like ss ss
  | [] => .nil
  | s :: rest => .cons (Stmt.Like.refl all s) (Stmts.Like.refl all rest)

theorem FunctionDecl.Like.refl (all : like.Reflexive) :
    ∀ decl : FunctionDecl, FunctionDecl.Like like decl decl
  | .mk name _ _ body =>
      .mk (all.name name) (List.forall₂_same.mpr fun param _ => all.named param.id param.name)
        (Stmts.Like.refl all body)

theorem Functions.Like.refl (all : like.Reflexive) :
    ∀ decls : List FunctionDecl, Functions.Like like decls decls
  | [] => .nil
  | decl :: rest => .cons (FunctionDecl.Like.refl all decl) (Functions.Like.refl all rest)

theorem Fields.Like.refl (all : like.Reflexive) :
    ∀ decls : List FieldDecl, Fields.Like like decls decls
  | [] => .nil
  | .mk name none :: rest => .cons (all.token name) (Fields.Like.refl all rest)
  | .mk name (some initial) :: rest =>
      .consInitial (all.token name) (Expr.Like.refl all initial) (Fields.Like.refl all rest)

end

end

end Lox
