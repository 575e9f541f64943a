import Lox.Token.Basic

set_option autoImplicit false

/-! The syntax tree. Names, declarations and receivers carry a node number, by which later stages
speak of them; loops with clauses and switches have no node of their own, since they are written
out in terms of the statements here. -/

namespace Lox

abbrev NodeId := Nat

inductive Literal where
  | nil
  | bool (value : Bool)
  | number (value : Float)
  | string (value : String)
deriving Repr, BEq, Inhabited

/-- What a function is for: an initializer sets up an instance and yields it. -/
inductive FunctionKind where
  | function
  | method
  | initializer
deriving Repr, DecidableEq, Inhabited

structure Param where
  id : NodeId
  name : Token
deriving Repr, Inhabited

mutual

inductive Expr where
  | literal (value : Literal)
  | unary (operator : Token) (right : Expr)
  | binary (left : Expr) (operator : Token) (right : Expr)
  | logical (left : Expr) (operator : Token) (right : Expr)
  | ternary (condition thenBranch elseBranch : Expr)
  | grouping (inner : Expr)
  | variable (id : NodeId) (name : Token)
  | assign (id : NodeId) (name : Token) (value : Expr)
  | call (callee : Expr) (paren : Token) (arguments : List Expr)
  | function (decl : FunctionDecl)
  | get (object : Expr) (name : Token)
  | set (object : Expr) (name : Token) (value : Expr)
  | this (id : NodeId) (keyword : Token)

inductive Stmt where
  | expression (value : Expr)
  | print (value : Expr)
  | var (id : NodeId) (name : Token) (initial : Option Expr)
  | block (body : List Stmt)
  | branch (condition : Expr) (thenBranch : Stmt) (elseBranch : Option Stmt)
  | loop (condition : Expr) (body : Stmt)
  | function (id : NodeId) (name : Token) (decl : FunctionDecl)
  | ret (keyword : Token) (value : Option Expr)
  | class (id : NodeId) (name : Token) (thisId : NodeId) (fields : List FieldDecl)
      (methods : List FunctionDecl)

/-- A function; one written as an expression has no name. -/
inductive FunctionDecl where
  | mk (name : Option Token) (kind : FunctionKind) (params : List Param) (body : List Stmt)

inductive FieldDecl where
  | mk (name : Token) (initial : Option Expr)

end

instance : Inhabited Expr := ⟨.literal .nil⟩
instance : Inhabited Stmt := ⟨.block []⟩
instance : Inhabited FunctionDecl := ⟨.mk none .function [] []⟩

namespace FunctionDecl

def name : FunctionDecl → Option Token
  | mk name _ _ _ => name

def kind : FunctionDecl → FunctionKind
  | mk _ kind _ _ => kind

def params : FunctionDecl → List Param
  | mk _ _ params _ => params

def body : FunctionDecl → List Stmt
  | mk _ _ _ body => body

end FunctionDecl

def FieldDecl.name : FieldDecl → Token
  | mk name _ => name

def FieldDecl.initial : FieldDecl → Option Expr
  | mk _ initial => initial

/-- Makes a statement a block of its own, unless it is one. -/
def Stmt.scoped : Stmt → Stmt
  | block body => block body
  | stmt => block [stmt]

end Lox
