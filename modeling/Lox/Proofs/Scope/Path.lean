import Lox.Scope.Resolve

set_option autoImplicit false

/-! Places in a program. A path leads from a node up to the root, and everything that a program says
about scopes, functions and classes around the node can be read off it. The sites of a program are
the nodes about which names are decided, each with its path, in the order in which a reader who goes
through the program once meets them. -/

namespace Lox

/-- A declaration as it is seen from some place: its node, its name, and whether the place lies in
its own initializer. -/
structure Binder where
  id : NodeId
  name : String
  underway : Bool
deriving Repr, DecidableEq

def Param.binder (param : Param) : Binder :=
  ⟨param.id, param.name.lexeme, false⟩

/-- The declarations that a statement adds to the scope in which it stands, latest first. -/
def Stmt.declared : Stmt → List Binder
  | .var id name _ => [⟨id, name.lexeme, false⟩]
  | .function id name _ => [⟨id, name.lexeme, false⟩]
  | .class id name _ _ _ => [⟨id, name.lexeme, false⟩]
  | .branch _ thenBranch none => thenBranch.declared
  | .branch _ thenBranch (some elseBranch) => elseBranch.declared ++ thenBranch.declared
  | .loop _ body => body.declared
  | _ => []

/-- One step from a node towards the root. Statements and parameters that stand before the node in
the same scope are listed latest first. -/
inductive Step where
  /-- Out of a block. -/
  | block (before : List Stmt)
  /-- Out of a function, whose parameters and body are one scope. -/
  | function (role : FunctionKind) (params : List Param) (before : List Stmt)
  /-- Out of the initializer of a variable. -/
  | initializer (id : NodeId) (name : Token)
  /-- Out of the function or class that a name is declared to be. -/
  | own (id : NodeId) (name : Token)
  /-- Out of the members of a class. -/
  | members (thisId : NodeId)
  /-- Out of the initializer of a field. -/
  | field

/-- Whether declarations can stand in the scope that is left, so that they are local. -/
def Step.opensScope : Step → Bool
  | .block _ | .function _ _ _ => true
  | _ => false

def Step.isMembers : Step → Bool
  | .members _ => true
  | _ => false

def Step.isField : Step → Bool
  | .field => true
  | _ => false

def Step.role? : Step → Option FunctionKind
  | .function role _ _ => some role
  | _ => none

/-- The declarations that a step finds, latest first. What stands outside all blocks and functions is
not local and does not count. -/
def Step.binders (isLocal : Bool) : Step → List Binder
  | .block before => before.flatMap Stmt.declared
  | .function _ params before => before.flatMap Stmt.declared ++ params.map Param.binder
  | .initializer id name => if isLocal then [⟨id, name.lexeme, true⟩] else []
  | .own id name => if isLocal then [⟨id, name.lexeme, false⟩] else []
  | .members thisId => [⟨thisId, "this", false⟩]
  | .field => []

def Step.past (s : Stmt) : Step → Step
  | .block before => .block (s :: before)
  | .function role params before => .function role params (s :: before)
  | step => step

section

variable (s : Stmt) (step : Step)

@[simp]
theorem Step.opensScope_past : (step.past s).opensScope = step.opensScope := by
  cases step <;> rfl

@[simp]
theorem Step.isMembers_past : (step.past s).isMembers = step.isMembers := by
  cases step <;> rfl

@[simp]
theorem Step.isField_past : (step.past s).isField = step.isField := by
  cases step <;> rfl

@[simp]
theorem Step.role?_past : (step.past s).role? = step.role? := by
  cases step <;> rfl

theorem Step.binders_past (isLocal : Bool) (opens : step.opensScope = true) :
    (step.past s).binders isLocal = s.declared ++ step.binders isLocal := by
  cases step with
  | block before => simp only [Step.past, Step.binders, List.flatMap_cons]
  | function role params before =>
      simp only [Step.past, Step.binders, List.flatMap_cons, List.append_assoc]
  | _ => cases opens

theorem Step.binders_of_opensScope (isLocal : Bool) (opens : step.opensScope = true) :
    step.binders isLocal = step.binders true := by
  cases step with
  | block before => rfl
  | function role params before => rfl
  | _ => cases opens

end

/-- The steps from a node to the root, innermost first. -/
abbrev Path := List Step

namespace Path

def isLocal (path : Path) : Bool :=
  path.any Step.opensScope

/-- The declarations in sight, innermost scope first and latest first within a scope. -/
def binders : Path → List Binder
  | [] => []
  | step :: outer => step.binders (isLocal outer) ++ binders outer

/-- The nearest declaration of a name, one whose initializer is around the place included. -/
def nearest? (path : Path) (name : String) : Option Binder :=
  path.binders.find? (·.name == name)

/-- The declaration that a name means: that of the innermost scope that declares it, where variables
count only after their statement, and functions, classes and parameters from their beginning. -/
def declaration? (path : Path) (name : String) : Option NodeId :=
  ((path.binders.filter (!·.underway)).find? (·.name == name)).map (·.id)

/-- The declarations that stand before a place in its own block or function. -/
def siblings : Path → List Binder
  | step :: _ => if step.opensScope then step.binders true else []
  | [] => []

def role? (path : Path) : Option FunctionKind :=
  path.findSome? Step.role?

def inClass (path : Path) : Bool :=
  path.any Step.isMembers

/-- Whether a field initializer lies between a place and the innermost class around it. -/
def inField (path : Path) : Bool :=
  (path.takeWhile (!·.isMembers)).any Step.isField

def past (path : Path) (s : Stmt) : Path :=
  match path with
  | [] => []
  | step :: outer => step.past s :: outer

section

variable (step : Step) (path : Path)

@[simp]
theorem isLocal_cons : isLocal (step :: path) = (step.opensScope || path.isLocal) := rfl

@[simp]
theorem role?_cons : role? (step :: path) = step.role?.or path.role? := by
  cases found : step.role? <;> simp [role?, found]

@[simp]
theorem inClass_cons : inClass (step :: path) = (step.isMembers || path.inClass) := rfl

@[simp]
theorem inField_cons :
    inField (step :: path) = (!step.isMembers && (step.isField || path.inField)) := by
  cases members : step.isMembers <;> simp [inField, members]

end

theorem mem_binders_past {path : Path} {s : Stmt} {b : Binder}
    (member : b ∈ (path.past s).binders) : b ∈ s.declared ∨ b ∈ path.binders := by
  cases path with
  | nil => exact .inr member
  | cons step outer =>
      cases opens : step.opensScope with
      | true =>
          rw [past, binders, Step.binders_past s step _ opens, List.append_assoc] at member
          exact List.mem_append.mp member
      | false =>
          have same : step.past s = step := by
            cases step <;> first | rfl | cases opens
          rw [past, same] at member
          exact .inr member

section

variable (path : Path) (name : String)

theorem declaration?_cons (step : Step) :
    declaration? (step :: path) name =
      ((((step.binders path.isLocal).filter (!·.underway)).find? (·.name == name)).map (·.id)).or
        (path.declaration? name) := by
  simp only [declaration?, binders, List.filter_append, List.find?_append, Option.map_or]

@[simp]
theorem declaration?_nil : declaration? [] name = none := rfl

@[simp]
theorem declaration?_block : declaration? (.block [] :: path) name = path.declaration? name := by
  simp [declaration?_cons, Step.binders]

@[simp]
theorem declaration?_field : declaration? (.field :: path) name = path.declaration? name := by
  simp [declaration?_cons, Step.binders]

@[simp]
theorem declaration?_initializer (id : NodeId) (own : Token) :
    declaration? (.initializer id own :: path) name = path.declaration? name := by
  cases isLocal : path.isLocal <;> simp [declaration?_cons, Step.binders, isLocal]

theorem declaration?_own (id : NodeId) (own : Token) :
    declaration? (.own id own :: path) name =
      if path.isLocal = true ∧ own.lexeme = name then some id else path.declaration? name := by
  cases isLocal : path.isLocal with
  | false => simp [declaration?_cons, Step.binders, isLocal]
  | true =>
      by_cases same : own.lexeme = name <;> simp [declaration?_cons, Step.binders, isLocal, same]

theorem declaration?_members (thisId : NodeId) :
    declaration? (.members thisId :: path) name =
      if "this" = name then some thisId else path.declaration? name := by
  by_cases same : "this" = name <;> simp [declaration?_cons, Step.binders, same]

@[simp]
theorem declaration?_function (role : FunctionKind) :
    declaration? (.function role [] [] :: path) name = path.declaration? name := by
  simp [declaration?_cons, Step.binders]

theorem declaration?_param (role : FunctionKind) (param : Param) (earlier : List Param) :
    declaration? (.function role (param :: earlier) [] :: path) name =
      if param.name.lexeme = name then some param.id
      else declaration? (.function role earlier [] :: path) name := by
  by_cases same : param.name.lexeme = name <;>
    simp [declaration?_cons, Step.binders, Param.binder, same]

/-- Whether statements stand at the end of a path: outside everything or directly in a scope. -/
def holdsStatements : Path → Bool
  | [] => true
  | step :: _ => step.opensScope

variable {path} {s : Stmt}

theorem holdsStatements_past (holds : path.holdsStatements = true) :
    (path.past s).holdsStatements = true := by
  cases path with
  | nil => rfl
  | cons step outer => exact (step.opensScope_past s).trans holds

theorem isLocal_past : (path.past s).isLocal = path.isLocal := by
  cases path with
  | nil => rfl
  | cons step outer => simp [past]

theorem inField_past : (path.past s).inField = path.inField := by
  cases path with
  | nil => rfl
  | cons step outer => simp [past]

theorem declaration?_past_of_declared {more : List Binder} (holds : path.holdsStatements = true)
    (declared : s.declared = more) :
    declaration? (path.past s) name =
      if path.isLocal then
        (((more.filter (!·.underway)).find? (·.name == name)).map (·.id)).or
          (path.declaration? name)
      else path.declaration? name := by
  subst declared
  cases path with
  | nil => rfl
  | cons step outer =>
      have isLocal : isLocal (step :: outer) = true := by
        rw [isLocal_cons, show step.opensScope = true from holds]
        rfl
      rw [if_pos isLocal, past, declaration?_cons, step.binders_past s _ holds, declaration?_cons,
        List.filter_append, List.find?_append, Option.map_or, Option.or_assoc]

theorem declaration?_past_nil (holds : path.holdsStatements = true) (declared : s.declared = []) :
    declaration? (path.past s) name = path.declaration? name := by
  rw [declaration?_past_of_declared name holds declared]
  split <;> rfl

theorem declaration?_past {id : NodeId} {own : String} (holds : path.holdsStatements = true)
    (declared : s.declared = [⟨id, own, false⟩]) :
    declaration? (path.past s) name =
      if path.isLocal = true ∧ own = name then some id else path.declaration? name := by
  rw [declaration?_past_of_declared name holds declared]
  cases isLocal : path.isLocal with
  | false => simp
  | true => by_cases same : own = name <;> simp [same]

end

end Path

/-- What is decided at a node. -/
inductive Mention where
  | declaration (id : NodeId) (name : Token)
  | receiver (id : NodeId)
  | reference (id : NodeId) (name : Token)
  | this (id : NodeId) (keyword : Token)
  | ret (keyword : Token) (hasValue : Bool)
  /-- A member of a class is named, after others. -/
  | member (earlier : List String) (name : Token)

/-- A node and the path from it to the root. -/
structure Site where
  path : Path
  mention : Mention

namespace Sites

def params (role : FunctionKind) (path : Path) : List Param → List Param → List Site
  | _, [] => []
  | earlier, param :: rest =>
    ⟨.function role earlier [] :: path, .declaration param.id param.name⟩ ::
      params role path (param :: earlier) rest

def members (path : Path) : List String → List Token → List Site
  | _, [] => []
  | earlier, name :: rest =>
    ⟨path, .member earlier name⟩ :: members path (name.lexeme :: earlier) rest

mutual

/-- The sites of an expression that stands at the end of a path. What is assigned is looked at before
what it is assigned to. -/
def expr (path : Path) : Expr → List Site
  | .literal _ => []
  | .unary _ right => expr path right
  | .binary left _ right => expr path left ++ expr path right
  | .logical left _ right => expr path left ++ expr path right
  | .ternary condition thenBranch elseBranch =>
    expr path condition ++ expr path thenBranch ++ expr path elseBranch
  | .grouping inner => expr path inner
  | .variable id name => [⟨path, .reference id name⟩]
  | .assign id name value => expr path value ++ [⟨path, .reference id name⟩]
  | .call callee _ arguments => expr path callee ++ exprs path arguments
  | .function decl => function .function path decl
  | .get object _ => expr path object
  | .set object _ value => expr path value ++ expr path object
  | .this id keyword => [⟨path, .this id keyword⟩]

def exprs (path : Path) : List Expr → List Site
  | [] => []
  | e :: rest => expr path e ++ exprs path rest

def stmt (path : Path) : Stmt → List Site
  | .expression value => expr path value
  | .print value => expr path value
  | .var id name none => [⟨path, .declaration id name⟩]
  | .var id name (some initial) =>
    ⟨path, .declaration id name⟩ :: expr (.initializer id name :: path) initial
  | .block body => stmts (.block [] :: path) body
  | .branch condition thenBranch none => expr path condition ++ stmt path thenBranch
  | .branch condition thenBranch (some elseBranch) =>
    expr path condition ++ stmt path thenBranch ++ stmt (path.past thenBranch) elseBranch
  | .loop condition body => expr path condition ++ stmt path body
  | .function id name decl =>
    ⟨path, .declaration id name⟩ :: function .function (.own id name :: path) decl
  | .ret keyword none => [⟨path, .ret keyword false⟩]
  | .ret keyword (some value) => ⟨path, .ret keyword true⟩ :: expr path value
  | .class id name thisId fieldDecls methodDecls =>
    let own := .own id name :: path
    let inside := .members thisId :: own
    ⟨path, .declaration id name⟩ ::
      (members own [] (Resolve.memberNames fieldDecls methodDecls) ++ ⟨inside, .receiver thisId⟩ ::
        (fields (.field :: inside) fieldDecls ++ methods inside methodDecls))

def stmts (path : Path) : List Stmt → List Site
  | [] => []
  | s :: rest => stmt path s ++ stmts (path.past s) rest

def function (role : FunctionKind) (path : Path) : FunctionDecl → List Site
  | .mk _ _ parameters body =>
    params role path [] parameters ++ stmts (.function role parameters.reverse [] :: path) body

def methods (path : Path) : List FunctionDecl → List Site
  | [] => []
  | method :: rest => function (Resolve.methodRole method.kind) path method ++ methods path rest

def fields (path : Path) : List FieldDecl → List Site
  | [] => []
  | .mk _ none :: rest => fields path rest
  | .mk _ (some value) :: rest => expr path value ++ fields path rest

end

def program (statements : List Stmt) : List Site :=
  stmts [] statements

end Sites
end Lox
