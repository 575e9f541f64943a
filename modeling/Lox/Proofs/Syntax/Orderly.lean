import Lox.Proofs.Scope.Path

set_option autoImplicit false

/-! Orderly trees. In an orderly tree declarations stand in scopes of their own, not bare as the body of
a branch or loop, and each declaration of a class, however deep it stands, has some property. -/

namespace Lox

/-- A class as it is declared. -/
structure ClassDecl where
  id : NodeId
  name : Token
  thisId : NodeId
  fields : List FieldDecl
  methods : List FunctionDecl

namespace ClassDecl

def statement (decl : ClassDecl) : Stmt :=
  .class decl.id decl.name decl.thisId decl.fields decl.methods

/-- The class that a statement declares. -/
def ofStatement? : Stmt → Option ClassDecl
  | .class id name thisId fieldDecls methodDecls => some ⟨id, name, thisId, fieldDecls, methodDecls⟩
  | _ => none

theorem eq_statement {s : Stmt} {decl : ClassDecl} (found : ofStatement? s = some decl) :
    s = decl.statement := by
  cases s <;> cases found
  rfl

end ClassDecl

namespace Orderly

set_option linter.unusedSectionVars false

section

variable (proper : ClassDecl → Prop)

mutual

def expr : Expr → Prop
  | .literal _ => True
  | .unary _ right => expr right
  | .binary left _ right => expr left ∧ expr right
  | .logical left _ right => expr left ∧ expr right
  | .ternary condition thenBranch elseBranch => expr condition ∧ expr thenBranch ∧ expr elseBranch
  | .grouping inner => expr inner
  | .variable _ _ => True
  | .assign _ _ value => expr value
  | .call callee _ arguments => expr callee ∧ exprs arguments
  | .function decl => function decl
  | .get object _ => expr object
  | .set object _ value => expr object ∧ expr value
  | .this _ _ => True

def exprs : List Expr → Prop
  | [] => True
  | e :: rest => expr e ∧ exprs rest

def stmt : Stmt → Prop
  | .expression value => expr value
  | .print value => expr value
  | .var _ _ none => True
  | .var _ _ (some initial) => expr initial
  | .block body => stmts body
  | .branch condition thenBranch none =>
    expr condition ∧ stmt thenBranch ∧ thenBranch.declared = []
  | .branch condition thenBranch (some elseBranch) =>
    expr condition ∧ (stmt thenBranch ∧ thenBranch.declared = []) ∧
      stmt elseBranch ∧ elseBranch.declared = []
  | .loop condition body => expr condition ∧ stmt body ∧ body.declared = []
  | .function _ _ decl => function decl
  | .ret _ none => True
  | .ret _ (some value) => expr value
  | .class id name thisId fieldDecls methodDecls =>
    proper ⟨id, name, thisId, fieldDecls, methodDecls⟩ ∧ fields fieldDecls ∧ functions methodDecls

def stmts : List Stmt → Prop
  | [] => True
  | s :: rest => stmt s ∧ stmts rest

def function : FunctionDecl → Prop
  | .mk _ _ _ body => stmts body

def functions : List FunctionDecl → Prop
  | [] => True
  | decl :: rest => function decl ∧ functions rest

def fields : List FieldDecl → Prop
  | [] => True
  | .mk _ none :: rest => fields rest
  | .mk _ (some value) :: rest => expr value ∧ fields rest

end
end

variable {proper better : ClassDecl → Prop} {known : Site → Prop}

theorem stmt_scoped {s : Stmt} (orderly : stmt proper s) : stmt proper s.scoped := by
  cases s with
  | block body => exact orderly
  | _ => exact ⟨orderly, trivial⟩

theorem exprs_iff {es : List Expr} : exprs proper es ↔ ∀ e ∈ es, expr proper e := by
  induction es with
  | nil => exact ⟨fun _ => nofun, fun _ => trivial⟩
  | cons e rest ih => rw [List.forall_mem_cons, ← ih]; rfl

theorem functions_iff {decls : List FunctionDecl} :
    functions proper decls ↔ ∀ decl ∈ decls, function proper decl := by
  induction decls with
  | nil => exact ⟨fun _ => nofun, fun _ => trivial⟩
  | cons decl rest ih => rw [List.forall_mem_cons, ← ih]; rfl

theorem fields_iff {decls : List FieldDecl} :
    fields proper decls ↔ ∀ decl ∈ decls, ∀ e ∈ decl.initial, expr proper e := by
  induction decls with
  | nil => exact ⟨fun _ => nofun, fun _ => trivial⟩
  | cons decl rest ih =>
    obtain ⟨name, initial⟩ := decl
    rw [List.forall_mem_cons, ← ih]
    cases initial with
    | none => exact ⟨fun orderly => ⟨nofun, orderly⟩, fun parts => parts.2⟩
    | some value =>
      exact ⟨fun orderly => ⟨fun e same => Option.some.inj same ▸ orderly.1, orderly.2⟩,
        fun parts => ⟨parts.1 value rfl, parts.2⟩⟩

theorem stmts_iff {ss : List Stmt} : stmts proper ss ↔ ∀ s ∈ ss, stmt proper s := by
  induction ss with
  | nil => exact ⟨fun _ => nofun, fun _ => trivial⟩
  | cons s rest ih => rw [List.forall_mem_cons, ← ih]; rfl

/-! ### More of each class

What is known of the sites of a tree may tell more of the classes that are declared in it. -/

section

variable (more : ∀ path decl, proper decl → (∀ site ∈ Sites.stmt path decl.statement, known site) →
  better decl)
include more

mutual

theorem expr_refine : ∀ (e : Expr) (path : Path), expr proper e →
    (∀ site ∈ Sites.expr path e, known site) → expr better e
  | .literal _, _, _, _ => trivial
  | .unary _ right, path, orderly, sites => expr_refine right path orderly sites
  | .binary left _ right, path, orderly, sites =>
    have parts := List.forall_mem_append.mp sites
    ⟨expr_refine left path orderly.1 parts.1, expr_refine right path orderly.2 parts.2⟩
  | .logical left _ right, path, orderly, sites =>
    have parts := List.forall_mem_append.mp sites
    ⟨expr_refine left path orderly.1 parts.1, expr_refine right path orderly.2 parts.2⟩
  | .ternary condition thenBranch elseBranch, path, orderly, sites =>
    have parts := List.forall_mem_append.mp sites
    have first := List.forall_mem_append.mp parts.1
    ⟨expr_refine condition path orderly.1 first.1,
      expr_refine thenBranch path orderly.2.1 first.2,
      expr_refine elseBranch path orderly.2.2 parts.2⟩
  | .grouping inner, path, orderly, sites => expr_refine inner path orderly sites
  | .variable _ _, _, _, _ => trivial
  | .assign _ _ value, path, orderly, sites =>
    expr_refine value path orderly (List.forall_mem_append.mp sites).1
  | .call callee _ arguments, path, orderly, sites =>
    have parts := List.forall_mem_append.mp sites
    ⟨expr_refine callee path orderly.1 parts.1, exprs_refine arguments path orderly.2 parts.2⟩
  | .function decl, path, orderly, sites => function_refine decl .function path orderly sites
  | .get object _, path, orderly, sites => expr_refine object path orderly sites
  | .set object _ value, path, orderly, sites =>
    have parts := List.forall_mem_append.mp sites
    ⟨expr_refine object path orderly.1 parts.2, expr_refine value path orderly.2 parts.1⟩
  | .this _ _, _, _, _ => trivial

theorem exprs_refine : ∀ (es : List Expr) (path : Path), exprs proper es →
    (∀ site ∈ Sites.exprs path es, known site) → exprs better es
  | [], _, _, _ => trivial
  | e :: rest, path, orderly, sites =>
    have parts := List.forall_mem_append.mp sites
    ⟨expr_refine e path orderly.1 parts.1, exprs_refine rest path orderly.2 parts.2⟩

theorem stmt_refine : ∀ (s : Stmt) (path : Path), stmt proper s →
    (∀ site ∈ Sites.stmt path s, known site) → stmt better s
  | .expression value, path, orderly, sites => expr_refine value path orderly sites
  | .print value, path, orderly, sites => expr_refine value path orderly sites
  | .var _ _ none, _, _, _ => trivial
  | .var id name (some initial), path, orderly, sites =>
    expr_refine initial (.initializer id name :: path) orderly (List.forall_mem_cons.mp sites).2
  | .block body, path, orderly, sites => stmts_refine body (.block [] :: path) orderly sites
  | .branch condition thenBranch none, path, orderly, sites =>
    have parts := List.forall_mem_append.mp sites
    ⟨expr_refine condition path orderly.1 parts.1,
      stmt_refine thenBranch path orderly.2.1 parts.2, orderly.2.2⟩
  | .branch condition thenBranch (some elseBranch), path, orderly, sites =>
    have parts := List.forall_mem_append.mp sites
    have first := List.forall_mem_append.mp parts.1
    ⟨expr_refine condition path orderly.1 first.1,
      ⟨stmt_refine thenBranch path orderly.2.1.1 first.2, orderly.2.1.2⟩,
      stmt_refine elseBranch (path.past thenBranch) orderly.2.2.1 parts.2, orderly.2.2.2⟩
  | .loop condition body, path, orderly, sites =>
    have parts := List.forall_mem_append.mp sites
    ⟨expr_refine condition path orderly.1 parts.1, stmt_refine body path orderly.2.1 parts.2,
      orderly.2.2⟩
  | .function id name decl, path, orderly, sites =>
    function_refine decl .function (.own id name :: path) orderly (List.forall_mem_cons.mp sites).2
  | .ret _ none, _, _, _ => trivial
  | .ret _ (some value), path, orderly, sites =>
    expr_refine value path orderly (List.forall_mem_cons.mp sites).2
  | .class id name thisId fieldDecls methodDecls, path, orderly, sites =>
    have inner := (List.forall_mem_append.mp (List.forall_mem_cons.mp sites).2).2
    have members := List.forall_mem_append.mp (List.forall_mem_cons.mp inner).2
    ⟨more path ⟨id, name, thisId, fieldDecls, methodDecls⟩ orderly.1 sites,
      fields_refine fieldDecls _ orderly.2.1 members.1,
      functions_refine methodDecls _ orderly.2.2 members.2⟩

theorem stmts_refine : ∀ (ss : List Stmt) (path : Path), stmts proper ss →
    (∀ site ∈ Sites.stmts path ss, known site) → stmts better ss
  | [], _, _, _ => trivial
  | s :: rest, path, orderly, sites =>
    have parts := List.forall_mem_append.mp sites
    ⟨stmt_refine s path orderly.1 parts.1, stmts_refine rest (path.past s) orderly.2 parts.2⟩

theorem function_refine : ∀ (decl : FunctionDecl) (role : FunctionKind) (path : Path),
    function proper decl → (∀ site ∈ Sites.function role path decl, known site) →
      function better decl
  | .mk _ _ parameters body, role, path, orderly, sites =>
    stmts_refine body (.function role parameters.reverse [] :: path) orderly
      (List.forall_mem_append.mp sites).2

theorem functions_refine : ∀ (decls : List FunctionDecl) (path : Path), functions proper decls →
    (∀ site ∈ Sites.methods path decls, known site) → functions better decls
  | [], _, _, _ => trivial
  | decl :: rest, path, orderly, sites =>
    have parts := List.forall_mem_append.mp sites
    ⟨function_refine decl _ path orderly.1 parts.1, functions_refine rest path orderly.2 parts.2⟩

theorem fields_refine : ∀ (decls : List FieldDecl) (path : Path), fields proper decls →
    (∀ site ∈ Sites.fields path decls, known site) → fields better decls
  | [], _, _, _ => trivial
  | .mk _ none :: rest, path, orderly, sites => fields_refine rest path orderly sites
  | .mk _ (some value) :: rest, path, orderly, sites =>
    have parts := List.forall_mem_append.mp sites
    ⟨expr_refine value path orderly.1 parts.1, fields_refine rest path orderly.2 parts.2⟩

end
end

theorem function_mono (improves : ∀ decl, proper decl → better decl) {decl : FunctionDecl}
    (orderly : function proper decl) : function better decl :=
  @function_refine proper better (fun _ => True) (fun _ D isProper _ => improves D isProper) decl
    .function [] orderly fun _ _ => trivial

end Orderly
end Lox
