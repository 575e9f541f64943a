import Lox.Proofs.Grammar.Assembly

set_option autoImplicit false

/-! The functions in a tree. Those that are methods of a class are told from those that are written as
expressions or declared as statements; of what is read, only methods can be initializers. -/

namespace Lox

namespace Functions

section

variable (plain method : FunctionDecl → Prop)

mutual

/-- All functions in an expression have some property, methods another one than the rest. -/
def expr : Expr → Prop
  | .literal _ => True
  | .unary _ right => expr right
  | .binary left _ right => expr left ∧ expr right
  | .logical left _ right => expr left ∧ expr right
  | .ternary condition thenBranch elseBranch => expr condition ∧ expr thenBranch ∧ expr elseBranch
  | .grouping inner => expr inner
  | .variable _ _ => True
  | .assign _ _ value => expr value
  | .call callee _ arguments => expr callee ∧ exprs arguments
  | .function decl => plain decl ∧ function decl
  | .get object _ => expr object
  | .set object _ value => expr object ∧ expr value
  | .this _ _ => True

def exprs : List Expr → Prop
  | [] => True
  | e :: rest => expr e ∧ exprs rest

def stmt : Stmt → Prop
  | .expression value => expr value
  | .print value => expr value
  | .var _ _ none => True
  | .var _ _ (some initial) => expr initial
  | .block body => stmts body
  | .branch condition thenBranch none => expr condition ∧ stmt thenBranch
  | .branch condition thenBranch (some elseBranch) =>
    expr condition ∧ stmt thenBranch ∧ stmt elseBranch
  | .loop condition body => expr condition ∧ stmt body
  | .function _ _ decl => plain decl ∧ function decl
  | .ret _ none => True
  | .ret _ (some value) => expr value
  | .class _ _ _ fieldDecls methodDecls => fields fieldDecls ∧ methods methodDecls

def stmts : List Stmt → Prop
  | [] => True
  | s :: rest => stmt s ∧ stmts rest

def function : FunctionDecl → Prop
  | .mk _ _ _ body => stmts body

def methods : List FunctionDecl → Prop
  | [] => True
  | decl :: rest => (method decl ∧ function decl) ∧ methods rest

def fields : List FieldDecl → Prop
  | [] => True
  | .mk _ none :: rest => fields rest
  | .mk _ (some value) :: rest => expr value ∧ fields rest

end
end

variable {plain method : FunctionDecl → Prop}

theorem exprs_iff {es : List Expr} : exprs plain method es ↔ ∀ e ∈ es, expr plain method e := by
  induction es with
  | nil => exact ⟨fun _ => nofun, fun _ => trivial⟩
  | cons e rest ih => rw [List.forall_mem_cons, ← ih]; rfl

theorem stmts_iff {ss : List Stmt} : stmts plain method ss ↔ ∀ s ∈ ss, stmt plain method s := by
  induction ss with
  | nil => exact ⟨fun _ => nofun, fun _ => trivial⟩
  | cons s rest ih => rw [List.forall_mem_cons, ← ih]; rfl

theorem methods_iff {decls : List FunctionDecl} : methods plain method decls ↔
    ∀ decl ∈ decls, method decl ∧ function plain method decl := by
  induction decls with
  | nil => exact ⟨fun _ => nofun, fun _ => trivial⟩
  | cons decl rest ih => rw [List.forall_mem_cons, ← ih]; rfl

theorem fields_iff {decls : List FieldDecl} : fields plain method decls ↔
    ∀ decl ∈ decls, ∀ e ∈ decl.initial, expr plain method e := by
  induction decls with
  | nil => exact ⟨fun _ => nofun, fun _ => trivial⟩
  | cons decl rest ih =>
      obtain ⟨name, initial⟩ := decl
      rw [List.forall_mem_cons, ← ih]
      cases initial with
      | none => exact ⟨fun all => ⟨nofun, all⟩, fun parts => parts.2⟩
      | some value =>
          exact ⟨fun all => ⟨fun e same => Option.some.inj same ▸ all.1, all.2⟩,
            fun parts => ⟨parts.1 value rfl, parts.2⟩⟩

theorem stmt_scoped {s : Stmt} (all : stmt plain method s) : stmt plain method s.scoped := by
  cases s with
  | block body => exact all
  | _ => exact ⟨all, trivial⟩

end Functions

/-- A function that is no method. -/
def FunctionDecl.IsPlain (decl : FunctionDecl) : Prop :=
  decl.kind = .function

/-- Trees in which only methods can be initializers are put together from such trees. -/
def Functions.assembly : Grammar.Assembly where
  token _ := True
  expr := expr FunctionDecl.IsPlain fun _ => True
  stmt := stmt FunctionDecl.IsPlain fun _ => True
  bare := stmt FunctionDecl.IsPlain fun _ => True
  method := function FunctionDecl.IsPlain fun _ => True
  ends _ := trivial
  hidden _ _ := trivial
  equals _ := trivial
  nil := trivial
  bool _ := trivial
  number _ := trivial
  string _ := trivial
  unary _ right := right
  binary _ _ left right := ⟨left, right⟩
  logical _ left right := ⟨left, right⟩
  ternary condition thenBranch elseBranch := ⟨condition, thenBranch, elseBranch⟩
  grouping inner := inner
  named _ _ _ := trivial
  assign _ value := value
  call _ callee arguments := ⟨callee, exprs_iff.mpr arguments⟩
  closure _ body := ⟨rfl, stmts_iff.mpr body⟩
  get _ object := object
  set target value := ⟨target, value⟩
  this _ _ _ := trivial
  ofBare all := all
  expression value := value
  print value := value
  ret {_ value} _ initial := by
    cases value with
    | none => trivial
    | some e => exact initial e rfl
  block body := stmts_iff.mpr body
  inBlock all := stmt_scoped all
  branch {_ _ elseBranch} test one other := by
    cases elseBranch with
    | none => exact ⟨test, one⟩
    | some s => exact ⟨test, one, other s rfl⟩
  loop test body := ⟨test, body⟩
  var _ {_ initial} _ value := by
    cases initial with
    | none => trivial
    | some e => exact value e rfl
  function _ _ _ _ _ _ body := ⟨rfl, stmts_iff.mpr body⟩
  ofMethod _ _ body := stmts_iff.mpr body
  ofMembers _ _ _ _ _ _ values decls :=
    ⟨fields_iff.mpr fun field member => (values field member).2,
      methods_iff.mpr fun decl member => ⟨trivial, decls decl member⟩⟩

/-- Whatever the tokens, in what is read from them only methods can be initializers. -/
theorem parse_plain (tokens : List Token) (firstId : NodeId) :
    Functions.stmts FunctionDecl.IsPlain (fun _ => True) (Grammar.parse tokens firstId).statements :=
  Functions.stmts_iff.mpr (Grammar.parse_assembled Functions.assembly (fun _ _ => trivial) firstId)

end Lox
