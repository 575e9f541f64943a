import Lox.Proofs.Decimal.Numeral
import Lox.Proofs.Dump.Datum
import Lox.Proofs.Grammar.Assembly

set_option autoImplicit false

/-! Trees read back from data. From the datum of a legible tree comes the tree itself, with neither node
numbers nor byte positions. -/

namespace Lox

/-! ### Trees without numbers and positions -/

def Token.stripped (t : Token) : Token :=
  { t with offset := 0 }

def Param.stripped (param : Param) : Param :=
  ⟨0, param.name.stripped⟩

mutual

/-- A tree in which every node number and every byte position is zero. -/
def Expr.stripped : Expr → Expr
  | .literal value => .literal value
  | .unary operator right => .unary operator.stripped right.stripped
  | .binary left operator right => .binary left.stripped operator.stripped right.stripped
  | .logical left operator right => .logical left.stripped operator.stripped right.stripped
  | .ternary condition thenBranch elseBranch =>
    .ternary condition.stripped thenBranch.stripped elseBranch.stripped
  | .grouping inner => .grouping inner.stripped
  | .variable _ name => .variable 0 name.stripped
  | .assign _ name value => .assign 0 name.stripped value.stripped
  | .call callee paren arguments => .call callee.stripped paren.stripped (Expr.allStripped arguments)
  | .function decl => .function decl.stripped
  | .get object name => .get object.stripped name.stripped
  | .set object name value => .set object.stripped name.stripped value.stripped
  | .this _ keyword => .this 0 keyword.stripped

def Expr.allStripped : List Expr → List Expr
  | [] => []
  | e :: rest => e.stripped :: Expr.allStripped rest

def Stmt.stripped : Stmt → Stmt
  | .expression value => .expression value.stripped
  | .print value => .print value.stripped
  | .var _ name none => .var 0 name.stripped none
  | .var _ name (some initial) => .var 0 name.stripped (some initial.stripped)
  | .block body => .block (Stmt.allStripped body)
  | .branch condition thenBranch none => .branch condition.stripped thenBranch.stripped none
  | .branch condition thenBranch (some elseBranch) =>
    .branch condition.stripped thenBranch.stripped (some elseBranch.stripped)
  | .loop condition body => .loop condition.stripped body.stripped
  | .function _ name decl => .function 0 name.stripped decl.stripped
  | .ret keyword none => .ret keyword.stripped none
  | .ret keyword (some value) => .ret keyword.stripped (some value.stripped)
  | .class _ name _ fields methods =>
    .class 0 name.stripped 0 (FieldDecl.allStripped fields) (FunctionDecl.allStripped methods)

def Stmt.allStripped : List Stmt → List Stmt
  | [] => []
  | s :: rest => s.stripped :: Stmt.allStripped rest

def FunctionDecl.stripped : FunctionDecl → FunctionDecl
  | .mk name kind params body =>
    .mk (name.map Token.stripped) kind (params.map Param.stripped) (Stmt.allStripped body)

def FunctionDecl.allStripped : List FunctionDecl → List FunctionDecl
  | [] => []
  | decl :: rest => decl.stripped :: FunctionDecl.allStripped rest

def FieldDecl.stripped : FieldDecl → FieldDecl
  | .mk name none => .mk name.stripped none
  | .mk name (some initial) => .mk name.stripped (some initial.stripped)

def FieldDecl.allStripped : List FieldDecl → List FieldDecl
  | [] => []
  | field :: rest => field.stripped :: FieldDecl.allStripped rest

end

/-! ### Data read as trees -/

namespace Datum

/-- A leaf as a name. -/
def name : Datum → Token
  | .leaf text => ⟨.identifier, text, 0⟩
  | .list _ => default

/-- The operator that is spelled so. -/
def sign (text : String) : Token :=
  match Token.readSymbol? text.toList with
  | some (s, _) => ⟨.symbol s, text, 0⟩
  | none => default

/-- A finite number that is written so. -/
noncomputable def number (text : String) : Float :=
  Function.invFunOn (Decimal.format Literal.numberStyle) {x | Decimal.IsPlain x} text

/-- A leaf as an expression: its first character tells a string, a number and a word apart. -/
noncomputable def atom (text : String) : Expr :=
  match text.toList with
  | [] => default
  | c :: rest =>
    if c = '"' then .literal (.string (String.ofList rest.dropLast))
    else if c.isDigit then .literal (.number (number text))
    else match Token.wordKind text with
      | .keyword .nilWord => .literal .nil
      | .keyword .trueWord => .literal (.bool true)
      | .keyword .falseWord => .literal (.bool false)
      | .keyword .thisWord => .this 0 ⟨.keyword .thisWord, text, 0⟩
      | _ => .variable 0 ⟨.identifier, text, 0⟩

def params : Datum → List Param
  | .leaf _ => []
  | .list items => items.map fun item => ⟨0, item.name⟩

mutual

/-- The first item of a list and the number of its items tell what kind of node it stands for. -/
noncomputable def expr : Datum → Expr
  | .leaf text => atom text
  | .list [.leaf "group", inner] => .grouping inner.expr
  | .list [.leaf "?:", condition, thenBranch, elseBranch] =>
    .ternary condition.expr thenBranch.expr elseBranch.expr
  | .list [.leaf "=", target, value] => .assign 0 target.name value.expr
  | .list (.leaf "call" :: callee :: arguments) =>
    .call callee.expr ⟨.symbol .leftParen, "(", 0⟩ (exprs arguments)
  | .list (.leaf "fun" :: parameters :: body) =>
    .function (.mk none .function parameters.params (stmts body))
  | .list [.leaf ".", object, property] => .get object.expr property.name
  | .list [.leaf ".=", object, property, value] => .set object.expr property.name value.expr
  | .list [.leaf "and", left, right] => .logical left.expr ⟨.keyword .andWord, "and", 0⟩ right.expr
  | .list [.leaf "or", left, right] => .logical left.expr ⟨.keyword .orWord, "or", 0⟩ right.expr
  | .list [.leaf operator, right] => .unary (sign operator) right.expr
  | .list [.leaf operator, left, right] => .binary left.expr (sign operator) right.expr
  | .list _ => default

noncomputable def exprs : List Datum → List Expr
  | [] => []
  | item :: rest => item.expr :: exprs rest

noncomputable def stmt : Datum → Stmt
  | .list [.leaf "expr", value] => .expression value.expr
  | .list [.leaf "print", value] => .print value.expr
  | .list [.leaf "var", name] => .var 0 name.name none
  | .list [.leaf "var", name, initial] => .var 0 name.name (some initial.expr)
  | .list (.leaf "block" :: body) => .block (stmts body)
  | .list [.leaf "if", condition, thenBranch] => .branch condition.expr thenBranch.stmt none
  | .list [.leaf "if", condition, thenBranch, elseBranch] =>
    .branch condition.expr thenBranch.stmt (some elseBranch.stmt)
  | .list [.leaf "while", condition, body] => .loop condition.expr body.stmt
  | .list (.leaf "fun" :: name :: parameters :: body) =>
    .function 0 name.name (.mk (some name.name) .function parameters.params (stmts body))
  | .list [.leaf "return"] => .ret ⟨.keyword .returnWord, "return", 0⟩ none
  | .list [.leaf "return", value] => .ret ⟨.keyword .returnWord, "return", 0⟩ (some value.expr)
  | .list (.leaf "class" :: name :: members) => .class 0 name.name 0 (fields members) (methods members)
  | _ => default

noncomputable def stmts : List Datum → List Stmt
  | [] => []
  | item :: rest => item.stmt :: stmts rest

/-- The fields among the members of a class. -/
noncomputable def fields : List Datum → List FieldDecl
  | [] => []
  | .list [.leaf "field", name] :: rest => .mk name.name none :: fields rest
  | .list [.leaf "field", name, initial] :: rest => .mk name.name (some initial.expr) :: fields rest
  | _ :: rest => fields rest

/-- The methods among the members of a class. -/
noncomputable def methods : List Datum → List FunctionDecl
  | [] => []
  | .list (.leaf "method" :: name :: parameters :: body) :: rest =>
    .mk (some name.name) (Grammar.Rules.methodKind name.name) parameters.params (stmts body) :: methods rest
  | _ :: rest => methods rest

end

theorem expr_unary (s : Symbol) (right : Datum) :
    (list [.leaf s.text, right]).expr = .unary (sign s.text) right.expr := by
  cases s <;> simp [Symbol.text, expr]

theorem expr_binary {s : Symbol} (isBinary : s.isBinary = true) (left right : Datum) :
    (list [.leaf s.text, left, right]).expr = .binary left.expr (sign s.text) right.expr := by
  cases s <;> simp [Symbol.isBinary, Symbol.text, expr] at isBinary ⊢

theorem fields_methodData (decls : List FunctionDecl) : fields (FunctionDecl.methodData decls) = [] := by
  induction decls with
  | nil => rfl
  | cons decl rest ih =>
    obtain ⟨name, kind, parameters, body⟩ := decl
    cases body <;> simp [FunctionDecl.methodData, FunctionDecl.data, Stmt.data, fields, ih]

theorem methods_data_append (decls : List FieldDecl) (rest : List Datum) :
    methods (FieldDecl.data decls ++ rest) = methods rest := by
  induction decls with
  | nil => rfl
  | cons decl more ih =>
    obtain ⟨name, _ | initial⟩ := decl <;>
      simp [FieldDecl.data, FieldDecl.datum, methods, ih]

end Datum
end Lox
