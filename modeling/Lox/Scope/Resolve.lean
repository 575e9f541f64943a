import Lox.Diagnostic
import Lox.Scope.Bindings

set_option autoImplicit false

/-! Resolution decides, before a program runs, which declaration each name means. Names that no
enclosing scope declares are global and get no binding. Programs that are wrong wherever they run
are refused: a name declared twice in a scope or read in its own initializer, `return` outside a
function, `this` outside a class, and their like. -/

namespace Lox

inductive ResolutionFault where
  | declaredTwice
  | memberDeclaredTwice
  | ownInitializer
  | returnOutsideFunction
  | returnFromInitializer
  | thisOutsideClass
  | thisInField
deriving Repr, DecidableEq, Inhabited

def ResolutionFault.message : ResolutionFault → String
  | declaredTwice => "Variable with this name already declared in this scope."
  | memberDeclaredTwice => "A member with this name is already declared in this class."
  | ownInitializer => "Cannot read local variable in its own initializer."
  | returnOutsideFunction => "Can't return from top-level code."
  | returnFromInitializer => "Can't return a value from an initializer."
  | thisOutsideClass => "Can't use 'this' outside of a class."
  | thisInField => "Can't use 'this' in a field initializer."

structure ResolutionError where
  fault : ResolutionFault
  token : Token
deriving Repr, Inhabited

def ResolutionError.diagnostic (e : ResolutionError) : Diagnostic :=
  ⟨.resolution, e.fault.message, some e.token.span, true⟩

/-- A name that a scope declares. It can be read once its declaration is finished. -/
structure Declared where
  name : String
  slot : Slot
  ready : Bool
deriving Repr, DecidableEq, Inhabited

abbrev Scope := List Declared

/-- Where in a program a node stands: the scopes around it, innermost first, what function and
whether a class is around it, and whether it belongs to the first value of a field. -/
structure Place where
  scopes : List Scope
  role : Option FunctionKind
  inClass : Bool
  inField : Bool
deriving Repr, Inhabited

namespace Place

def top : Place := ⟨[], none, false, false⟩

def find? (place : Place) (name : String) : Option Declared :=
  place.scopes.findSome? fun scope => scope.find? (·.name == name)

def enter (place : Place) (scope : Scope) : Place :=
  { place with scopes := scope :: place.scopes }

/-- Finishes the declaration of a name in the innermost scope. -/
def markReady (place : Place) (name : String) : Place :=
  match place.scopes with
  | [] => place
  | scope :: outer =>
    let finish (d : Declared) := if d.name == name then { d with ready := true } else d
    { place with scopes := scope.map finish :: outer }

end Place

/-- Resolution changes the table of bindings; one that fails leaves what it has bound. -/
abbrev Resolve (α : Type) := EStateM ResolutionError Bindings α

namespace Resolve

def fail {α : Type} (fault : ResolutionFault) (token : Token) : Resolve α :=
  throw ⟨fault, token⟩

def allocate (node : NodeId) : Resolve Slot := fun bindings =>
  let (slot, bindings) := bindings.allocate
  .ok slot (bindings.bind node slot)

/-- Declares a name in the innermost scope, if there is one. -/
def declare (place : Place) (ready : Bool) (node : NodeId) (name : Token) : Resolve Place := do
  match place.scopes with
  | [] => return place
  | scope :: outer =>
    if scope.any (·.name == name.lexeme) then
      fail .declaredTwice name
    else
      let slot ← allocate node
      return { place with scopes := (⟨name.lexeme, slot, ready⟩ :: scope) :: outer }

def reference (place : Place) (node : NodeId) (name : Token) : Resolve Unit :=
  match place.find? name.lexeme with
  | none => return ()
  | some declared =>
    if declared.ready then fun bindings => .ok () (bindings.bind node declared.slot)
    else fail .ownInitializer name

def declareParams (place : Place) : List Param → Resolve Place
  | [] => return place
  | param :: rest => do
    let place ← declare place true param.id param.name
    declareParams place rest

/-- The first member whose name an earlier member has. -/
def repeatedMember? (seen : List String) : List Token → Option Token
  | [] => none
  | name :: rest =>
    if seen.contains name.lexeme then some name else repeatedMember? (name.lexeme :: seen) rest

def memberNames (fields : List FieldDecl) (methods : List FunctionDecl) : List Token :=
  fields.map (·.name) ++ methods.filterMap (·.name)

def methodRole (kind : FunctionKind) : FunctionKind :=
  if kind = .initializer then .initializer else .method

mutual

def expr (place : Place) : Expr → Resolve Unit
  | .literal _ => return ()
  | .unary _ right => expr place right
  | .binary left _ right => do
    expr place left
    expr place right
  | .logical left _ right => do
    expr place left
    expr place right
  | .ternary condition thenBranch elseBranch => do
    expr place condition
    expr place thenBranch
    expr place elseBranch
  | .grouping inner => expr place inner
  | .variable id name => reference place id name
  | .assign id name value => do
    expr place value
    reference place id name
  | .call callee _ arguments => do
    expr place callee
    exprs place arguments
  | .function decl => function { place with role := some .function } decl
  | .get object _ => expr place object
  | .set object _ value => do
    expr place value
    expr place object
  | .this id keyword =>
    if !place.inClass then fail .thisOutsideClass keyword
    else if place.inField then fail .thisInField keyword
    else reference place id keyword

def exprs (place : Place) : List Expr → Resolve Unit
  | [] => return ()
  | e :: rest => do
    expr place e
    exprs place rest

/-- Binds the names of a statement and yields the place of the statement after it. -/
def stmt (place : Place) : Stmt → Resolve Place
  | .expression value => do
    expr place value
    return place
  | .print value => do
    expr place value
    return place
  | .var id name initial => do
    let inside ← declare place false id name
    match initial with
    | none => return inside.markReady name.lexeme
    | some value =>
      expr inside value
      return inside.markReady name.lexeme
  | .block body => do
    let _ ← stmts (place.enter []) body
    return place
  | .branch condition thenBranch elseBranch => do
    expr place condition
    let place ← stmt place thenBranch
    match elseBranch with
    | none => return place
    | some other => stmt place other
  | .loop condition body => do
    expr place condition
    stmt place body
  | .function id name decl => do
    let place ← declare place true id name
    function { place with role := some .function } decl
    return place
  | .ret keyword value =>
    match place.role, value with
    | none, _ => fail .returnOutsideFunction keyword
    | some _, none => return place
    | some .initializer, some _ => fail .returnFromInitializer keyword
    | some _, some value => do
      expr place value
      return place
  | .class id name thisId fieldDecls methodDecls => do
    let place ← declare place true id name
    match repeatedMember? [] (memberNames fieldDecls methodDecls) with
    | some member => fail .memberDeclaredTwice member
    | none =>
      let thisSlot ← allocate thisId
      let inside :=
        { place.enter [⟨"this", thisSlot, true⟩] with inClass := true, inField := false }
      fields { inside with inField := true } fieldDecls
      methods inside methodDecls
      return place

def stmts (place : Place) : List Stmt → Resolve Place
  | [] => return place
  | s :: rest => do
    let place ← stmt place s
    stmts place rest

/-- Parameters and body share one scope. -/
def function (place : Place) : FunctionDecl → Resolve Unit
  | .mk _ _ params body => do
    let inside ← declareParams (place.enter []) params
    let _ ← stmts inside body
    return ()

def methods (place : Place) : List FunctionDecl → Resolve Unit
  | [] => return ()
  | method :: rest => do
    function { place with role := some (methodRole method.kind) } method
    methods place rest

def fields (place : Place) : List FieldDecl → Resolve Unit
  | [] => return ()
  | .mk _ none :: rest => fields place rest
  | .mk _ (some value) :: rest => do
    expr place value
    fields place rest

end
end Resolve

/-- Resolves a program. The bindings that are returned hold whatever was bound, also on failure. -/
def resolve (bindings : Bindings) (program : List Stmt) : Option ResolutionError × Bindings :=
  match Resolve.stmts Place.top program bindings with
  | .ok _ bindings => (none, bindings)
  | .error e bindings => (some e, bindings)

end Lox
