import Lox.Decimal.Notation
import Lox.Syntax.Basic

set_option autoImplicit false

/-! Trees as text in parentheses, operator first. Node numbers and byte positions are left out. -/

namespace Lox

/-- Numbers in trees: a whole number is written with all its digits and a point. -/
def Literal.numberStyle : Decimal.Style where
  whole := .exact none
  tie := .up
  positional := none
  nan := "NaN"
  infinity := "inf"
  minusInfinity := "-inf"

/-- Strings stand between quotes, with nothing escaped. -/
def Literal.toSExpr : Literal → String
  | nil => "nil"
  | bool true => "true"
  | bool false => "false"
  | number value => Decimal.format numberStyle value
  | string value => "\"" ++ value ++ "\""

def Param.listText (params : List Param) : String :=
  "(" ++ " ".intercalate (params.map (·.name.lexeme)) ++ ")"

mutual

def Expr.append (out : String) : Expr → String
  | .literal value => out ++ value.toSExpr
  | .unary operator right => right.append (out ++ "(" ++ operator.lexeme ++ " ") ++ ")"
  | .binary left operator right =>
    right.append (left.append (out ++ "(" ++ operator.lexeme ++ " ") ++ " ") ++ ")"
  | .logical left operator right =>
    right.append (left.append (out ++ "(" ++ operator.lexeme ++ " ") ++ " ") ++ ")"
  | .ternary condition thenBranch elseBranch =>
    elseBranch.append (thenBranch.append (condition.append (out ++ "(?: ") ++ " ") ++ " ") ++ ")"
  | .grouping inner => inner.append (out ++ "(group ") ++ ")"
  | .variable _ name => out ++ name.lexeme
  | .assign _ name value => value.append (out ++ "(= " ++ name.lexeme ++ " ") ++ ")"
  | .call callee _ arguments => Expr.appendAll (callee.append (out ++ "(call ")) arguments ++ ")"
  | .function decl => decl.append (out ++ "(fun ")
  | .get object name => object.append (out ++ "(. ") ++ " " ++ name.lexeme ++ ")"
  | .set object name value =>
    value.append (object.append (out ++ "(.= ") ++ " " ++ name.lexeme ++ " ") ++ ")"
  | .this _ _ => out ++ "this"

def Expr.appendAll (out : String) : List Expr → String
  | [] => out
  | expr :: rest => Expr.appendAll (expr.append (out ++ " ")) rest

def Stmt.append (out : String) : Stmt → String
  | .expression value => value.append (out ++ "(expr ") ++ ")"
  | .print value => value.append (out ++ "(print ") ++ ")"
  | .var _ name none => out ++ "(var " ++ name.lexeme ++ ")"
  | .var _ name (some initial) => initial.append (out ++ "(var " ++ name.lexeme ++ " ") ++ ")"
  | .block body => Stmt.appendAll (out ++ "(block") body ++ ")"
  | .branch condition thenBranch none =>
    thenBranch.append (condition.append (out ++ "(if ") ++ " ") ++ ")"
  | .branch condition thenBranch (some elseBranch) =>
    elseBranch.append (thenBranch.append (condition.append (out ++ "(if ") ++ " ") ++ " ") ++ ")"
  | .loop condition body => body.append (condition.append (out ++ "(while ") ++ " ") ++ ")"
  | .function _ name decl => decl.append (out ++ "(fun " ++ name.lexeme ++ " ")
  | .ret _ none => out ++ "(return)"
  | .ret _ (some value) => value.append (out ++ "(return ") ++ ")"
  | .class _ name _ fields methods =>
    FunctionDecl.appendMethods
      (FieldDecl.appendAll (out ++ "(class " ++ name.lexeme) fields) methods ++ ")"

def Stmt.appendAll (out : String) : List Stmt → String
  | [] => out
  | stmt :: rest => Stmt.appendAll (stmt.append (out ++ " ")) rest

def FunctionDecl.append (out : String) : FunctionDecl → String
  | .mk _ _ params body => Stmt.appendAll (out ++ Param.listText params) body ++ ")"

def FunctionDecl.appendMethods (out : String) : List FunctionDecl → String
  | [] => out
  | method :: rest =>
    FunctionDecl.appendMethods
      (method.append (out ++ " (method " ++ (method.name.elim "" (·.lexeme)) ++ " ")) rest

def FieldDecl.append (out : String) : FieldDecl → String
  | .mk name none => out ++ "(field " ++ name.lexeme ++ ")"
  | .mk name (some initial) => initial.append (out ++ "(field " ++ name.lexeme ++ " ") ++ ")"

def FieldDecl.appendAll (out : String) : List FieldDecl → String
  | [] => out
  | field :: rest => FieldDecl.appendAll (field.append (out ++ " ")) rest

end

def Expr.toSExpr (expr : Expr) : String :=
  expr.append ""

def Stmt.toSExpr (stmt : Stmt) : String :=
  stmt.append ""

end Lox
