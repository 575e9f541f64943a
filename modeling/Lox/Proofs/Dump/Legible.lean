import Lox.Proofs.Decimal.Numeral
import Lox.Proofs.Dump.Datum
import Lox.Proofs.Grammar.Assembly
import Lox.Proofs.Token.Tiling

set_option autoImplicit false

/-! Legible trees: the tokens of each node are of the kinds that belong there, and are spelled as tokens of
these kinds are. What is read from a text without infinite numbers is legible. -/

namespace Lox

open Grammar (Known)
open Grammar.Rules (hiddenName methodKind)

/-! ### Tokens -/

/-- A word that is a name and nothing else. -/
structure IsName (text : String) : Prop where
  begins : ∃ c rest, text.toList = c :: rest ∧ c.isDigit = false
  parts : ∀ c ∈ text.toList, Datum.isWordPart c = true
  other : ∀ k : Keyword, k.text ≠ text

/-- Not a number that is too large for a double. -/
def Token.IsFinite (t : Token) : Prop :=
  match t.kind with
  | .number value => Decimal.IsFinite value
  | _ => True

instance : DecidablePred Token.IsFinite
  | ⟨.number value, _, _⟩ => inferInstanceAs (Decidable (Decimal.IsFinite value))
  | ⟨.symbol _, _, _⟩ | ⟨.keyword _, _, _⟩ | ⟨.identifier, _, _⟩ | ⟨.string _, _, _⟩
  | ⟨.endOfInput, _, _⟩ => .isTrue trivial

/-- How tokens of a kind are spelled, and what they stand for: no infinite number, nothing with a quote in it. -/
def Token.Kind.Legible (lexeme : String) : Token.Kind → Prop
  | .symbol s => lexeme = s.text
  | .keyword k => lexeme = k.text
  | .identifier => IsName lexeme
  | .number value => Decimal.IsPlain value
  | .string contents => '"' ∉ contents.toList
  | .endOfInput => True

def Token.Legible (t : Token) : Prop :=
  t.kind.Legible t.lexeme

namespace Token

theorem isWordPart_of_isNamePart {c : Char} (part : isNamePart c = true) : Datum.isWordPart c = true := by
  simp only [Datum.isWordPart, Bool.and_eq_true, bne_iff_ne]
  refine ⟨⟨⟨?_, ?_⟩, ?_⟩, ?_⟩ <;> (rintro rfl; revert part; decide)

theorem isName_of_lexeme {c : Char} {rest : List Char} (start : isNameStart c = true)
    (parts : ∀ d ∈ rest, isNamePart d = true) (other : ∀ k : Keyword, k.text.toList ≠ c :: rest) :
    IsName (String.ofList (c :: rest)) := by
  have begins := not_isDigit_of_isNameStart start
  refine ⟨⟨c, rest, String.toList_ofList, begins⟩, fun d member => ?_, fun k same => ?_⟩
  · rw [String.toList_ofList] at member
    exact isWordPart_of_isNamePart (namePart_all start parts d member)
  · exact other k (by rw [same, String.toList_ofList])

theorem isName_hiddenName (id : NodeId) (keyword : Token) : IsName (hiddenName id keyword).lexeme := by
  have spelled : (hiddenName id keyword).lexeme.toList = "switch#".toList ++ Nat.toDigits 10 id := by
    simp [hiddenName]
  have begins : Char.isDigit 's' = false := by decide
  refine ⟨⟨'s', "witch#".toList ++ Nat.toDigits 10 id, spelled, begins⟩, fun c member => ?_, fun k same => ?_⟩
  · rw [spelled] at member
    rcases List.mem_append.mp member with letter | digit
    · exact List.all_eq_true.mp (show "switch#".toList.all Datum.isWordPart = true by decide) c letter
    · have isDigit := Nat.isDigit_of_mem_toDigits (by decide) (by decide) digit
      exact isWordPart_of_isNamePart (by simp [isNamePart, Char.isAlphanum, isDigit])
  · -- No keyword holds the character that stands before the number.
    have mark : '#' ∈ k.text.toList := by
      rw [same, spelled]
      exact List.mem_append_left _ (by decide)
    revert mark
    cases k <;> decide

/-- Whatever is read is legible, as long as it is no infinite number. -/
theorem legible_of_lexeme {t : Token} (valid : Lexeme t.lexeme.toList t.kind) (finite : t.IsFinite) :
    t.Legible := by
  obtain ⟨kind, lexeme, offset⟩ := t
  dsimp only at valid
  generalize spelled : lexeme.toList = letters at valid
  cases valid with
  | symbol s => exact String.toList_inj.mp spelled
  | keyword k => exact String.toList_inj.mp spelled
  | string inside =>
    show '"' ∉ (String.ofList _).toList
    rw [String.toList_ofList]
    exact inside
  | whole => exact Decimal.isPlain_of_isFinite finite (Decimal.toBits_ofDigits_lt _ _)
  | decimal => exact Decimal.isPlain_of_isFinite finite (Decimal.toBits_ofDigits_lt _ _)
  | name start parts other =>
    have name := isName_of_lexeme start parts other
    rw [← spelled, String.ofList_toList] at name
    exact name

theorem ofText_legible {base : Nat} {text : List Char}
    (finite : ∀ t ∈ ofText base text, t.IsFinite) :
    ∀ t ∈ ofText base text, t.Legible := by
  intro t member
  have ended := member
  rw [ofText_eq_words] at ended
  rcases List.mem_append.mp ended with word | last
  · obtain ⟨item, inBody, isToken⟩ := List.mem_filterMap.mp word
    cases item with
    | error e => cases isToken
    | token other =>
      cases isToken
      exact legible_of_lexeme (lexeme_of_body inBody) (finite t member)
  · rw [List.mem_singleton.mp last]
    trivial

end Token

/-! ### Trees -/

def Literal.Legible : Literal → Prop
  | .number value => Decimal.IsPlain value
  | .string contents => '"' ∉ contents.toList
  | _ => True

namespace Legible

/-- A legible token of some kind. -/
abbrev token (kind : Token.Kind) (t : Token) : Prop :=
  Known Token.Legible kind t

section token

variable {t : Token}

theorem of_token {kind : Token.Kind} (known : token kind t) : kind.Legible t.lexeme :=
  known.2 ▸ known.1

theorem lexeme_of_symbol {s : Symbol} (known : token (.symbol s) t) : t.lexeme = s.text :=
  of_token known

theorem lexeme_of_keyword {k : Keyword} (known : token (.keyword k) t) : t.lexeme = k.text :=
  of_token known

theorem isName_of_token (known : token .identifier t) : IsName t.lexeme :=
  of_token known

end token

def params (parameters : List Param) : Prop :=
  ∀ param ∈ parameters, token .identifier param.name

mutual

def expr : Expr → Prop
  | .literal value => value.Legible
  | .unary operator right => (token (.symbol .bang) operator ∨ token (.symbol .minus) operator) ∧ expr right
  | .binary left operator right =>
    (∃ s : Symbol, token (.symbol s) operator ∧ s.isBinary = true) ∧ expr left ∧ expr right
  | .logical left operator right =>
    (token (.keyword .andWord) operator ∨ token (.keyword .orWord) operator) ∧ expr left ∧ expr right
  | .ternary condition thenBranch elseBranch => expr condition ∧ expr thenBranch ∧ expr elseBranch
  | .grouping inner => expr inner
  | .variable _ name => token .identifier name
  | .assign _ name value => token .identifier name ∧ expr value
  | .call callee paren arguments => token (.symbol .leftParen) paren ∧ expr callee ∧ exprs arguments
  | .function (.mk name kind parameters body) =>
    name = none ∧ kind = .function ∧ params parameters ∧ stmts body
  | .get object name => token .identifier name ∧ expr object
  | .set object name value => token .identifier name ∧ expr object ∧ expr value
  | .this _ keyword => token (.keyword .thisWord) keyword

def exprs : List Expr → Prop
  | [] => True
  | e :: rest => expr e ∧ exprs rest

def stmt : Stmt → Prop
  | .expression value => expr value
  | .print value => expr value
  | .var _ name none => token .identifier name
  | .var _ name (some initial) => token .identifier name ∧ expr initial
  | .block body => stmts body
  | .branch condition thenBranch none => expr condition ∧ stmt thenBranch
  | .branch condition thenBranch (some elseBranch) =>
    expr condition ∧ stmt thenBranch ∧ stmt elseBranch
  | .loop condition body => expr condition ∧ stmt body
  | .function _ name (.mk own kind parameters body) =>
    token .identifier name ∧ own = some name ∧ kind = .function ∧ params parameters ∧ stmts body
  | .ret keyword none => token (.keyword .returnWord) keyword
  | .ret keyword (some value) => token (.keyword .returnWord) keyword ∧ expr value
  | .class _ name _ fieldDecls methodDecls =>
    token .identifier name ∧ fields fieldDecls ∧ methods methodDecls

def stmts : List Stmt → Prop
  | [] => True
  | s :: rest => stmt s ∧ stmts rest

def method : FunctionDecl → Prop
  | .mk none _ _ _ => False
  | .mk (some name) kind parameters body =>
    token .identifier name ∧ kind = methodKind name ∧ params parameters ∧ stmts body

def methods : List FunctionDecl → Prop
  | [] => True
  | decl :: rest => method decl ∧ methods rest

def field : FieldDecl → Prop
  | .mk name none => token .identifier name
  | .mk name (some initial) => token .identifier name ∧ expr initial

def fields : List FieldDecl → Prop
  | [] => True
  | decl :: rest => field decl ∧ fields rest

end

theorem exprs_of_forall {es : List Expr} (all : ∀ e ∈ es, expr e) : exprs es := by
  induction es with
  | nil => trivial
  | cons e rest ih => exact ⟨all e List.mem_cons_self, ih fun e' member => all e' (List.mem_cons_of_mem _ member)⟩

theorem stmts_iff {ss : List Stmt} : stmts ss ↔ ∀ s ∈ ss, stmt s := by
  induction ss with
  | nil => exact ⟨fun _ => nofun, fun _ => trivial⟩
  | cons s rest ih => rw [List.forall_mem_cons, ← ih]; rfl

theorem methods_of_forall {decls : List FunctionDecl} (all : ∀ decl ∈ decls, method decl) : methods decls := by
  induction decls with
  | nil => trivial
  | cons decl rest ih =>
    exact ⟨all decl List.mem_cons_self, ih fun other member => all other (List.mem_cons_of_mem _ member)⟩

theorem fields_of_forall {decls : List FieldDecl} (all : ∀ decl ∈ decls,
    token .identifier decl.name ∧ ∀ e ∈ decl.initial, expr e) : fields decls := by
  induction decls with
  | nil => trivial
  | cons decl rest ih =>
    refine ⟨?_, ih fun other member => all other (List.mem_cons_of_mem _ member)⟩
    obtain ⟨name, initial⟩ := decl
    obtain ⟨named, value⟩ := all _ List.mem_cons_self
    cases initial with
    | none => exact named
    | some e => exact ⟨named, value e rfl⟩

theorem stmt_scoped {s : Stmt} (legible : stmt s) : stmt s.scoped := by
  cases s with
  | block body => exact legible
  | _ => exact ⟨legible, trivial⟩

/-- Legible trees are put together from legible trees and legible tokens. -/
def assembly : Grammar.Assembly where
  token := Token.Legible
  expr := expr
  stmt := stmt
  bare := stmt
  method := method
  ends _ := trivial
  hidden id keyword := Token.isName_hiddenName id keyword
  equals _ := rfl
  nil := trivial
  bool _ := trivial
  number known := of_token known
  string known := of_token known
  unary operator right := ⟨operator, right⟩
  binary operator isBinary left right := ⟨⟨_, operator, isBinary⟩, left, right⟩
  logical operator left right := ⟨operator, left, right⟩
  ternary condition thenBranch elseBranch := ⟨condition, thenBranch, elseBranch⟩
  grouping inner := inner
  named _ _ name := name
  assign name value := ⟨name, value⟩
  call paren callee arguments := ⟨paren, callee, exprs_of_forall arguments⟩
  closure names body := ⟨rfl, rfl, names, stmts_iff.mpr body⟩
  get name object := ⟨name, object⟩
  set target value := ⟨target.1, target.2, value⟩
  this _ _ keyword := keyword
  ofBare legible := legible
  expression value := value
  print value := value
  ret {_ value} keyword initial := by
    cases value with
    | none => exact keyword
    | some e => exact ⟨keyword, initial e rfl⟩
  block body := stmts_iff.mpr body
  inBlock legible := stmt_scoped legible
  branch {_ _ elseBranch} test one other := by
    cases elseBranch with
    | none => exact ⟨test, one⟩
    | some s => exact ⟨test, one, other s rfl⟩
  loop test body := ⟨test, body⟩
  var _ {_ initial} named value := by
    cases initial with
    | none => exact named
    | some e => exact ⟨named, value e rfl⟩
  function _ _ _ _ named names body := ⟨named, rfl, rfl, names, stmts_iff.mpr body⟩
  ofMethod named names body := ⟨named, rfl, names, stmts_iff.mpr body⟩
  ofMembers _ _ _ _ _ named values decls :=
    ⟨named, fields_of_forall values, methods_of_forall decls⟩

end Legible

/-- What is read from legible tokens is legible. -/
theorem Grammar.parse_legible {tokens : List Token} (legible : ∀ t ∈ tokens, t.Legible) (firstId : NodeId) :
    Legible.stmts (parse tokens firstId).statements :=
  Legible.stmts_iff.mpr (parse_assembled Legible.assembly legible firstId)

end Lox
