import Lox.Syntax.Basic
import Lox.Token.Listing

set_option autoImplicit false

/-! Trees as JSON documents. Every node is an object with one field, named for its shape. -/

namespace Lox

def Json.node (shape : String) (parts : List (String × Json)) : Json :=
  .object [(shape, .object parts)]

def Literal.toJson : Literal → Json
  | nil => .string "Nil"
  | bool true => .string "True"
  | bool false => .string "False"
  | number value => .object [("Number", .number value)]
  | string value => .object [("Str", .string value)]

def FunctionKind.name : FunctionKind → String
  | function => "Function"
  | method => "Method"
  | initializer => "Initializer"

def Param.toJson (param : Param) : Json :=
  .object [("id", .natural param.id), ("name", param.name.toJson)]

mutual

def Expr.toJson : Expr → Json
  | .literal value => .object [("Literal", value.toJson)]
  | .unary operator right => .node "Unary" [("operator", operator.toJson), ("right", right.toJson)]
  | .binary left operator right =>
    .node "Binary" [("left", left.toJson), ("operator", operator.toJson), ("right", right.toJson)]
  | .logical left operator right =>
    .node "Logical" [("left", left.toJson), ("operator", operator.toJson), ("right", right.toJson)]
  | .ternary condition thenBranch elseBranch =>
    .node "Ternary" [("condition", condition.toJson), ("then_branch", thenBranch.toJson),
      ("else_branch", elseBranch.toJson)]
  | .grouping inner => .object [("Grouping", inner.toJson)]
  | .variable id name => .node "Variable" [("id", .natural id), ("name", name.toJson)]
  | .assign id name value =>
    .node "Assign" [("id", .natural id), ("name", name.toJson), ("value", value.toJson)]
  | .call callee paren arguments =>
    .node "Call" [("callee", callee.toJson), ("paren", paren.toJson),
      ("arguments", .array (Expr.listToJson arguments))]
  | .function decl => .object [("Function", decl.toJson)]
  | .get object name => .node "Get" [("object", object.toJson), ("name", name.toJson)]
  | .set object name value =>
    .node "Set" [("object", object.toJson), ("name", name.toJson), ("value", value.toJson)]
  | .this id keyword => .node "This" [("id", .natural id), ("keyword", keyword.toJson)]

def Expr.optionToJson : Option Expr → Json
  | none => .null
  | some expr => expr.toJson

def Expr.listToJson : List Expr → List Json
  | [] => []
  | expr :: rest => expr.toJson :: Expr.listToJson rest

def Stmt.toJson : Stmt → Json
  | .expression value => .object [("Expression", value.toJson)]
  | .print value => .object [("Print", value.toJson)]
  | .var id name initial =>
    .node "Var" [("id", .natural id), ("name", name.toJson),
      ("initializer", Expr.optionToJson initial)]
  | .block body => .object [("Block", .array (Stmt.listToJson body))]
  | .branch condition thenBranch elseBranch =>
    .node "If" [("condition", condition.toJson), ("then_branch", thenBranch.toJson),
      ("else_branch", Stmt.optionToJson elseBranch)]
  | .loop condition body =>
    .node "While" [("condition", condition.toJson), ("body", body.toJson)]
  | .function id name decl =>
    .node "Function" [("id", .natural id), ("name", name.toJson), ("function", decl.toJson)]
  | .ret keyword value =>
    .node "Return" [("keyword", keyword.toJson), ("value", Expr.optionToJson value)]
  | .class id name thisId fields methods =>
    .node "Class" [("id", .natural id), ("name", name.toJson), ("this_id", .natural thisId),
      ("fields", .array (FieldDecl.listToJson fields)),
      ("methods", .array (FunctionDecl.listToJson methods))]

def Stmt.optionToJson : Option Stmt → Json
  | none => .null
  | some stmt => stmt.toJson

def Stmt.listToJson : List Stmt → List Json
  | [] => []
  | stmt :: rest => stmt.toJson :: Stmt.listToJson rest

def FunctionDecl.toJson : FunctionDecl → Json
  | .mk name kind params body =>
    .object [("name", name.elim .null Token.toJson), ("kind", .string kind.name),
      ("params", .array (params.map Param.toJson)), ("body", .array (Stmt.listToJson body))]

def FunctionDecl.listToJson : List FunctionDecl → List Json
  | [] => []
  | decl :: rest => decl.toJson :: FunctionDecl.listToJson rest

def FieldDecl.toJson : FieldDecl → Json
  | .mk name initial =>
    .object [("name", name.toJson), ("initializer", Expr.optionToJson initial)]

def FieldDecl.listToJson : List FieldDecl → List Json
  | [] => []
  | field :: rest => field.toJson :: FieldDecl.listToJson rest

end

def Stmt.programToJson (program : List Stmt) : Json :=
  .array (Stmt.listToJson program)

end Lox
