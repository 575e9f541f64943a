import Lox.Proofs.Grammar.Assembly
import Lox.Proofs.Syntax.Orderly

set_option autoImplicit false

/-! What is read is orderly, whatever the tokens: declarations stand in scopes of their own, and the
methods of each class have names, by which its initializer is told from the others. -/

namespace Lox

/-- All methods have names, and those that are named `init` are initializers. -/
def ClassDecl.TellsInitializer (decl : ClassDecl) : Prop :=
  ∀ method ∈ decl.methods, ∃ name, method.name = some name ∧
    (method.kind = .initializer ↔ name.lexeme = "init")

namespace Grammar

/-- Trees that are read. -/
abbrev Tree.expr : Expr → Prop := Orderly.expr ClassDecl.TellsInitializer
abbrev Tree.exprs : List Expr → Prop := Orderly.exprs ClassDecl.TellsInitializer
abbrev Tree.stmt : Stmt → Prop := Orderly.stmt ClassDecl.TellsInitializer
abbrev Tree.stmts : List Stmt → Prop := Orderly.stmts ClassDecl.TellsInitializer
abbrev Tree.function : FunctionDecl → Prop := Orderly.function ClassDecl.TellsInitializer

/-- A statement that can stand alone as the body of a branch or loop. -/
def Tree.bare (s : Stmt) : Prop :=
  Tree.stmt s ∧ s.declared = []

theorem Tree.bare_scoped {s : Stmt} (orderly : Tree.stmt s) : Tree.bare s.scoped :=
  ⟨Orderly.stmt_scoped orderly, s.declared_scoped⟩

/-- A method by which it can be told whether it is an initializer. -/
def Tree.method (decl : FunctionDecl) : Prop :=
  Tree.function decl ∧
    ∃ name, decl.name = some name ∧ (decl.kind = .initializer ↔ name.lexeme = "init")

theorem methodKind_eq_initializer_iff (name : Token) :
    Rules.methodKind name = .initializer ↔ name.lexeme = "init" := by
  unfold Rules.methodKind
  by_cases same : name.lexeme = "init" <;> simp [same]

theorem Tree.bare_branch {condition : Expr} {thenBranch : Stmt} {elseBranch : Option Stmt}
    (test : Tree.expr condition) (one : Tree.bare thenBranch) (other : ∀ s ∈ elseBranch, Tree.bare s) :
    Tree.bare (.branch condition thenBranch elseBranch) := by
  cases elseBranch with
  | none => exact ⟨⟨test, one⟩, one.2⟩
  | some s =>
    have two := other s rfl
    refine ⟨⟨test, one, two⟩, ?_⟩
    rw [Stmt.declared, one.2, two.2, List.append_nil]

theorem Tree.stmt_class (id : NodeId) (name : Token) (thisId : NodeId) {fields : List FieldDecl}
    {methods : List FunctionDecl} (values : ∀ field ∈ fields, ∀ e ∈ field.initial, Tree.expr e)
    (told : ∀ decl ∈ methods, Tree.method decl) : Tree.stmt (.class id name thisId fields methods) :=
  ⟨fun decl member => (told decl member).2, Orderly.fields_iff.mpr values,
    Orderly.functions_iff.mpr fun decl member => (told decl member).1⟩

/-- Orderly trees are put together from orderly trees. -/
def Tree.assembly : Assembly where
  token _ := True
  expr := Tree.expr
  stmt := Tree.stmt
  bare := Tree.bare
  method := Tree.method
  ends _ := trivial
  hidden _ _ := trivial
  equals _ := trivial
  nil := trivial
  bool _ := trivial
  number _ := trivial
  string _ := trivial
  unary _ right := right
  binary _ _ left right := ⟨left, right⟩
  logical _ left right := ⟨left, right⟩
  ternary condition thenBranch elseBranch := ⟨condition, thenBranch, elseBranch⟩
  grouping inner := inner
  named _ _ _ := trivial
  assign _ value := value
  call _ callee arguments := ⟨callee, Orderly.exprs_iff.mpr arguments⟩
  closure _ body := Orderly.stmts_iff.mpr body
  get _ object := object
  set target value := ⟨target, value⟩
  this _ _ _ := trivial
  ofBare bare := bare.1
  expression value := ⟨value, rfl⟩
  print value := ⟨value, rfl⟩
  ret {_ value} _ initial := by
    cases value with
    | none => exact ⟨trivial, rfl⟩
    | some e => exact ⟨initial e rfl, rfl⟩
  block body := ⟨Orderly.stmts_iff.mpr body, rfl⟩
  inBlock orderly := Tree.bare_scoped orderly
  branch test one other := Tree.bare_branch test one other
  loop test body := ⟨⟨test, body⟩, body.2⟩
  var _ {_ initial} _ value := by
    cases initial with
    | none => trivial
    | some e => exact value e rfl
  function _ _ _ _ _ _ body := Orderly.stmts_iff.mpr body
  ofMethod {name _ _} _ _ body :=
    ⟨Orderly.stmts_iff.mpr body, name, rfl, methodKind_eq_initializer_iff name⟩
  ofMembers id name thisId _ _ _ values told :=
    Tree.stmt_class id name thisId (fun field member => (values field member).2) told

structure Rules.Orderly (rules : Rules) : Prop where
  expression : ∀ min cursor e after, rules.expression min cursor = .ok e after → Tree.expr e
  statement : ∀ cursor s after, rules.statement cursor = .ok s after → Tree.bare s

theorem rulesAt_orderly (depth : Nat) : (rulesAt depth).Orderly :=
  have assembles := rulesAt_assembles Tree.assembly depth
  have knows (cursor : Cursor) : cursor.Knows Tree.assembly.token := .all fun _ => trivial
  ⟨fun min cursor _ _ read => (assembles.expression min).of_ok (knows cursor) read,
    fun cursor _ _ read => assembles.statement.of_ok (knows cursor) read⟩

/-- Whatever the tokens, what is read from them is orderly. -/
theorem parse_orderly (tokens : List Token) (firstId : NodeId) :
    Tree.stmts (parse tokens firstId).statements :=
  Orderly.stmts_iff.mpr (parse_assembled Tree.assembly (fun _ _ => trivial) firstId)

end Grammar
end Lox
