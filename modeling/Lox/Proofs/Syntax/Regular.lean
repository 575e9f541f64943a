import Lox.Proofs.Scope.Path

set_option autoImplicit false

/-! Facts about trees that a reader of programs can rely on. The numbers of a tree are those of all
its nodes, in the order of its sites. A tree is regular if no name in it is spelled like the receiver,
every receiver is, and declarations stand in scopes of their own: not bare as the body of a branch or
loop, where they would be made more than once in a scope or not at all. Fields may have initializers,
which are looked for anywhere in a tree. -/

namespace Lox

namespace Nodes

def params (parameters : List Param) : List NodeId :=
  parameters.map (·.id)

mutual

def expr : Expr → List NodeId
  | .literal _ => []
  | .unary _ right => expr right
  | .binary left _ right => expr left ++ expr right
  | .logical left _ right => expr left ++ expr right
  | .ternary condition thenBranch elseBranch =>
    expr condition ++ expr thenBranch ++ expr elseBranch
  | .grouping inner => expr inner
  | .variable id _ => [id]
  | .assign id _ value => expr value ++ [id]
  | .call callee _ arguments => expr callee ++ exprs arguments
  | .function decl => function decl
  | .get object _ => expr object
  | .set object _ value => expr value ++ expr object
  | .this id _ => [id]

def exprs : List Expr → List NodeId
  | [] => []
  | e :: rest => expr e ++ exprs rest

def stmt : Stmt → List NodeId
  | .expression value => expr value
  | .print value => expr value
  | .var id _ none => [id]
  | .var id _ (some initial) => id :: expr initial
  | .block body => stmts body
  | .branch condition thenBranch none => expr condition ++ stmt thenBranch
  | .branch condition thenBranch (some elseBranch) =>
    expr condition ++ stmt thenBranch ++ stmt elseBranch
  | .loop condition body => expr condition ++ stmt body
  | .function id _ decl => id :: function decl
  | .ret _ none => []
  | .ret _ (some value) => expr value
  | .class id _ thisId fieldDecls methodDecls =>
    id :: thisId :: (fields fieldDecls ++ functions methodDecls)

def stmts : List Stmt → List NodeId
  | [] => []
  | s :: rest => stmt s ++ stmts rest

def function : FunctionDecl → List NodeId
  | .mk _ _ parameters body => params parameters ++ stmts body

def functions : List FunctionDecl → List NodeId
  | [] => []
  | decl :: rest => function decl ++ functions rest

def fields : List FieldDecl → List NodeId
  | [] => []
  | .mk _ none :: rest => fields rest
  | .mk _ (some value) :: rest => expr value ++ fields rest

end
end Nodes

def thisName : String := "this"

namespace Regular

def params (parameters : List Param) : Prop :=
  ∀ param ∈ parameters, param.name.lexeme ≠ thisName

mutual

def expr : Expr → Prop
  | .literal _ => True
  | .unary _ right => expr right
  | .binary left _ right => expr left ∧ expr right
  | .logical left _ right => expr left ∧ expr right
  | .ternary condition thenBranch elseBranch => expr condition ∧ expr thenBranch ∧ expr elseBranch
  | .grouping inner => expr inner
  | .variable _ name => name.lexeme ≠ thisName
  | .assign _ name value => name.lexeme ≠ thisName ∧ expr value
  | .call callee _ arguments => expr callee ∧ exprs arguments
  | .function decl => function decl
  | .get object _ => expr object
  | .set object _ value => expr object ∧ expr value
  | .this _ keyword => keyword.lexeme = thisName

def exprs : List Expr → Prop
  | [] => True
  | e :: rest => expr e ∧ exprs rest

def stmt : Stmt → Prop
  | .expression value => expr value
  | .print value => expr value
  | .var _ name none => name.lexeme ≠ thisName
  | .var _ name (some initial) => name.lexeme ≠ thisName ∧ expr initial
  | .block body => stmts body
  | .branch condition thenBranch none =>
    expr condition ∧ stmt thenBranch ∧ thenBranch.declared = []
  | .branch condition thenBranch (some elseBranch) =>
    expr condition ∧ (stmt thenBranch ∧ thenBranch.declared = []) ∧
      stmt elseBranch ∧ elseBranch.declared = []
  | .loop condition body => expr condition ∧ stmt body ∧ body.declared = []
  | .function _ name decl => name.lexeme ≠ thisName ∧ function decl
  | .ret _ none => True
  | .ret _ (some value) => expr value
  | .class _ name _ fieldDecls methodDecls =>
    name.lexeme ≠ thisName ∧ fields fieldDecls ∧ functions methodDecls

def stmts : List Stmt → Prop
  | [] => True
  | s :: rest => stmt s ∧ stmts rest

def function : FunctionDecl → Prop
  | .mk _ _ parameters body => params parameters ∧ stmts body

def functions : List FunctionDecl → Prop
  | [] => True
  | decl :: rest => function decl ∧ functions rest

def fields : List FieldDecl → Prop
  | [] => True
  | .mk _ none :: rest => fields rest
  | .mk _ (some value) :: rest => expr value ∧ fields rest

end
end Regular

namespace Initialized

mutual

/-- The names of all fields in an expression that have an initializer. -/
def expr : Expr → List Token
  | .literal _ => []
  | .unary _ right => expr right
  | .binary left _ right => expr left ++ expr right
  | .logical left _ right => expr left ++ expr right
  | .ternary condition thenBranch elseBranch =>
    expr condition ++ expr thenBranch ++ expr elseBranch
  | .grouping inner => expr inner
  | .variable _ _ => []
  | .assign _ _ value => expr value
  | .call callee _ arguments => expr callee ++ exprs arguments
  | .function decl => function decl
  | .get object _ => expr object
  | .set object _ value => expr object ++ expr value
  | .this _ _ => []

def exprs : List Expr → List Token
  | [] => []
  | e :: rest => expr e ++ exprs rest

def stmt : Stmt → List Token
  | .expression value => expr value
  | .print value => expr value
  | .var _ _ none => []
  | .var _ _ (some initial) => expr initial
  | .block body => stmts body
  | .branch condition thenBranch none => expr condition ++ stmt thenBranch
  | .branch condition thenBranch (some elseBranch) =>
    expr condition ++ stmt thenBranch ++ stmt elseBranch
  | .loop condition body => expr condition ++ stmt body
  | .function _ _ decl => function decl
  | .ret _ none => []
  | .ret _ (some value) => expr value
  | .class _ _ _ fieldDecls methodDecls => fields fieldDecls ++ functions methodDecls

def stmts : List Stmt → List Token
  | [] => []
  | s :: rest => stmt s ++ stmts rest

def function : FunctionDecl → List Token
  | .mk _ _ _ body => stmts body

def functions : List FunctionDecl → List Token
  | [] => []
  | decl :: rest => function decl ++ functions rest

def fields : List FieldDecl → List Token
  | [] => []
  | .mk _ none :: rest => fields rest
  | .mk name (some value) :: rest => name :: (expr value ++ fields rest)

end
end Initialized

def Mention.nodes : Mention → List NodeId
  | .declaration id _ => [id]
  | .receiver id => [id]
  | .reference id _ => [id]
  | .this id _ => [id]
  | .ret _ _ => []
  | .member _ _ => []

def Site.nodes (site : Site) : List NodeId :=
  site.mention.nodes

namespace Sites

def nodes (sites : List Site) : List NodeId :=
  sites.flatMap Site.nodes

@[simp]
theorem nodes_nil : nodes [] = [] := rfl

@[simp]
theorem nodes_cons (site : Site) (rest : List Site) :
    nodes (site :: rest) = site.mention.nodes ++ nodes rest := rfl

@[simp]
theorem nodes_append (sites rest : List Site) :
    nodes (sites ++ rest) = nodes sites ++ nodes rest :=
  List.flatMap_append

@[simp]
theorem nodes_params (role : FunctionKind) (path : Path) (earlier parameters : List Param) :
    nodes (params role path earlier parameters) = Nodes.params parameters := by
  induction parameters generalizing earlier with
  | nil => rfl
  | cons param rest ih =>
      simp only [params, nodes_cons, ih, Mention.nodes, Nodes.params, List.map_cons,
        List.singleton_append]

@[simp]
theorem nodes_members (path : Path) (earlier : List String) (names : List Token) :
    nodes (members path earlier names) = [] := by
  induction names generalizing earlier with
  | nil => rfl
  | cons name rest ih => simp only [members, nodes_cons, ih, Mention.nodes, List.append_nil]

mutual

/-- Every node of a tree has its site, wherever the tree stands. -/
theorem nodes_expr (path : Path) : ∀ e : Expr, nodes (expr path e) = Nodes.expr e
  | .literal _ => rfl
  | .unary _ right => by simp only [expr, Nodes.expr, nodes_expr path right]
  | .binary left _ right => by
      simp only [expr, Nodes.expr, nodes_append, nodes_expr path left, nodes_expr path right]
  | .logical left _ right => by
      simp only [expr, Nodes.expr, nodes_append, nodes_expr path left, nodes_expr path right]
  | .ternary condition thenBranch elseBranch => by
      simp only [expr, Nodes.expr, nodes_append, nodes_expr path condition,
        nodes_expr path thenBranch, nodes_expr path elseBranch]
  | .grouping inner => by simp only [expr, Nodes.expr, nodes_expr path inner]
  | .variable _ _ => rfl
  | .assign _ _ value => by
      simp only [expr, Nodes.expr, nodes_append, nodes_expr path value, nodes_cons, nodes_nil,
        Mention.nodes, List.append_nil]
  | .call callee _ arguments => by
      simp only [expr, Nodes.expr, nodes_append, nodes_expr path callee,
        nodes_exprs path arguments]
  | .function decl => by simp only [expr, Nodes.expr, nodes_function .function path decl]
  | .get object _ => by simp only [expr, Nodes.expr, nodes_expr path object]
  | .set object _ value => by
      simp only [expr, Nodes.expr, nodes_append, nodes_expr path value, nodes_expr path object]
  | .this _ _ => rfl

theorem nodes_exprs (path : Path) : ∀ es : List Expr, nodes (exprs path es) = Nodes.exprs es
  | [] => rfl
  | e :: rest => by
      simp only [exprs, Nodes.exprs, nodes_append, nodes_expr path e, nodes_exprs path rest]

theorem nodes_stmt (path : Path) : ∀ s : Stmt, nodes (stmt path s) = Nodes.stmt s
  | .expression value => by simp only [stmt, Nodes.stmt, nodes_expr path value]
  | .print value => by simp only [stmt, Nodes.stmt, nodes_expr path value]
  | .var _ _ none => rfl
  | .var id name (some initial) => by
      simp only [stmt, Nodes.stmt, nodes_cons, Mention.nodes, List.singleton_append,
        nodes_expr (.initializer id name :: path) initial]
  | .block body => by simp only [stmt, Nodes.stmt, nodes_stmts (.block [] :: path) body]
  | .branch condition thenBranch none => by
      simp only [stmt, Nodes.stmt, nodes_append, nodes_expr path condition,
        nodes_stmt path thenBranch]
  | .branch condition thenBranch (some elseBranch) => by
      simp only [stmt, Nodes.stmt, nodes_append, nodes_expr path condition,
        nodes_stmt path thenBranch, nodes_stmt (path.past thenBranch) elseBranch]
  | .loop condition body => by
      simp only [stmt, Nodes.stmt, nodes_append, nodes_expr path condition, nodes_stmt path body]
  | .function id name decl => by
      simp only [stmt, Nodes.stmt, nodes_cons, Mention.nodes, List.singleton_append,
        nodes_function .function (.own id name :: path) decl]
  | .ret _ none => rfl
  | .ret _ (some value) => by
      simp only [stmt, Nodes.stmt, nodes_cons, Mention.nodes, List.nil_append,
        nodes_expr path value]
  | .class id name thisId fieldDecls methodDecls => by
      simp only [stmt, Nodes.stmt, nodes_cons, nodes_append, nodes_members, Mention.nodes,
        List.singleton_append, List.nil_append,
        nodes_fields (.field :: .members thisId :: .own id name :: path) fieldDecls,
        nodes_methods (.members thisId :: .own id name :: path) methodDecls]

theorem nodes_stmts (path : Path) : ∀ ss : List Stmt, nodes (stmts path ss) = Nodes.stmts ss
  | [] => rfl
  | s :: rest => by
      simp only [stmts, Nodes.stmts, nodes_append, nodes_stmt path s,
        nodes_stmts (path.past s) rest]

theorem nodes_function (role : FunctionKind) (path : Path) :
    ∀ decl : FunctionDecl, nodes (function role path decl) = Nodes.function decl
  | .mk _ _ parameters body => by
      simp only [function, Nodes.function, nodes_append, nodes_params,
        nodes_stmts (.function role parameters.reverse [] :: path) body]

theorem nodes_methods (path : Path) :
    ∀ decls : List FunctionDecl, nodes (methods path decls) = Nodes.functions decls
  | [] => rfl
  | method :: rest => by
      simp only [methods, Nodes.functions, nodes_append,
        nodes_function (Resolve.methodRole method.kind) path method, nodes_methods path rest]

theorem nodes_fields (path : Path) :
    ∀ decls : List FieldDecl, nodes (fields path decls) = Nodes.fields decls
  | [] => rfl
  | .mk _ none :: rest => by simp only [fields, Nodes.fields, nodes_fields path rest]
  | .mk _ (some value) :: rest => by
      simp only [fields, Nodes.fields, nodes_append, nodes_expr path value,
        nodes_fields path rest]

end

theorem nodes_program (statements : List Stmt) : nodes (program statements) = Nodes.stmts statements :=
  nodes_stmts [] statements

end Sites
end Lox
