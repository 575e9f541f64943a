import Lox.Proofs.Token.Lexeme
import Lox.Syntax.SExpr

set_option autoImplicit false

/-! Data in parentheses. Whatever stands behind its text, the text of a datum can be told from it, as long as
no word goes on there. So no two data are written alike. The text of a tree is that of a datum, with a word for
the kind of each node in front. -/

namespace Lox

inductive Datum where
  | leaf (text : String)
  | list (items : List Datum)

namespace Datum

instance : Inhabited Datum := ⟨.list []⟩

mutual

/-- The items of a list stand in parentheses, with one blank between two of them. -/
@[simp]
def text : Datum → List Char
  | .leaf text => text.toList
  | .list [] => ['(', ')']
  | .list (first :: rest) => '(' :: (first.text ++ (behind rest ++ [')']))

/-- Items with a blank before each of them. -/
@[simp]
def behind : List Datum → List Char
  | [] => []
  | item :: rest => ' ' :: (item.text ++ behind rest)

end

/-- Characters that do not end a word. -/
def isWordPart (c : Char) : Bool :=
  c != ' ' && c != '(' && c != ')' && c != '"'

/-- A leaf is a word or stands in quotes, with no quote inside. -/
inductive Leaf : List Char → Prop
  | word {text : List Char} (some : text ≠ []) (all : ∀ c ∈ text, isWordPart c = true) : Leaf text
  | quoted {contents : List Char} (inside : '"' ∉ contents) : Leaf ('"' :: (contents ++ ['"']))

theorem Leaf.of_all {text : List Char} (isWord : text ≠ [] ∧ text.all isWordPart = true) : Leaf text :=
  .word isWord.1 (List.all_eq_true.mp isWord.2)

mutual

/-- All leaves of a datum are words or stand in quotes. -/
def Sound : Datum → Prop
  | .leaf text => Leaf text.toList
  | .list items => AllSound items

def AllSound : List Datum → Prop
  | [] => True
  | item :: rest => item.Sound ∧ AllSound rest

end

/-- No word goes on here. -/
def Stops (rest : List Char) : Prop :=
  ∀ c ∈ rest.head?, c = ' ' ∨ c = ')'

theorem stops_nil : Stops [] := nofun

theorem stops_close (rest : List Char) : Stops (')' :: rest) := by
  intro c member
  cases member
  exact .inr rfl

theorem stops_behind (items : List Datum) (rest : List Char) : Stops (behind items ++ ')' :: rest) := by
  cases items with
  | nil => exact stops_close rest
  | cons item more =>
    intro c member
    cases member
    exact .inl rfl

variable {text other rest more : List Char}

theorem takeWhile_stops (stops : Stops rest) : rest.takeWhile isWordPart = [] := by
  cases rest with
  | nil => rfl
  | cons c after =>
    rcases stops c rfl with rfl | rfl <;> rfl

theorem word_ne_quoted {contents : List Char} (some : text ≠ []) (all : ∀ c ∈ text, isWordPart c = true) :
    text ++ rest ≠ '"' :: contents := by
  intro same
  obtain ⟨c, after, rfl⟩ := List.exists_cons_of_ne_nil some
  cases same
  exact absurd (all _ List.mem_cons_self) (by decide)

theorem quoted_cut {contents contents' : List Char} (inside : '"' ∉ contents) (inside' : '"' ∉ contents')
    (same : contents ++ '"' :: rest = contents' ++ '"' :: more) : contents = contents' ∧ rest = more := by
  have front := congrArg (List.takeWhile (· != '"')) same
  rw [Token.takeWhile_all (Token.not_quote inside), Token.takeWhile_all (Token.not_quote inside'),
    List.takeWhile_cons_of_neg (by decide), List.takeWhile_cons_of_neg (by decide), List.append_nil,
    List.append_nil] at front
  subst front
  exact ⟨rfl, List.tail_eq_of_cons_eq (List.append_cancel_left same)⟩

/-- A leaf ends where a word does not go on, or at the second quote. -/
theorem Leaf.cut (leaf : Leaf text) (another : Leaf other) (stops : Stops rest) (stops' : Stops more)
    (same : text ++ rest = other ++ more) : text = other ∧ rest = more := by
  cases leaf with
  | word some all =>
    cases another with
    | word some' all' =>
      have front := congrArg (List.takeWhile isWordPart) same
      rw [Token.takeWhile_all all, Token.takeWhile_all all', takeWhile_stops stops,
        takeWhile_stops stops', List.append_nil, List.append_nil] at front
      exact ⟨front, List.append_cancel_left (front ▸ same)⟩
    | quoted inside => exact absurd same (word_ne_quoted some all)
  | quoted inside =>
    cases another with
    | word some all => exact absurd same.symm (word_ne_quoted some all)
    | quoted inside' =>
      simp only [List.cons_append, List.append_assoc, List.cons.injEq, true_and] at same
      obtain ⟨rfl, rest⟩ := quoted_cut inside inside' same
      exact ⟨rfl, rest⟩

theorem Leaf.head (leaf : Leaf text) : ∃ c after, text = c :: after ∧ c ≠ '(' ∧ c ≠ ')' := by
  cases leaf with
  | word some all =>
    obtain ⟨c, after, rfl⟩ := List.exists_cons_of_ne_nil some
    have part := all c List.mem_cons_self
    simp only [isWordPart, Bool.and_eq_true, bne_iff_ne] at part
    exact ⟨c, after, rfl, part.1.1.2, part.1.2⟩
  | quoted => exact ⟨_, _, rfl, by decide, by decide⟩

/-- A leaf never begins like a list. -/
theorem Leaf.ne_list (leaf : Leaf text) (items : List Datum) :
    text ++ rest ≠ (Datum.list items).text ++ more := by
  obtain ⟨c, after, rfl, notOpen, -⟩ := leaf.head
  cases items <;> exact fun same => notOpen (List.head_eq_of_cons_eq same)

/-- No datum begins like the end of a list. -/
theorem text_ne_close {d : Datum} (sound : d.Sound) : d.text ++ rest ≠ ')' :: more := by
  cases d with
  | leaf text =>
    obtain ⟨c, after, written, -, notClose⟩ := Leaf.head sound
    rw [Datum.text, written]
    exact fun same => notClose (List.head_eq_of_cons_eq same)
  | list items => cases items <;> exact nofun

mutual

/-- No two data are written alike, whatever stands behind them. -/
theorem text_cut : ∀ {d e : Datum} {rest more : List Char}, d.Sound → e.Sound → Stops rest → Stops more →
    d.text ++ rest = e.text ++ more → d = e ∧ rest = more
  | .leaf _, .leaf _, _, _, sound, sound', stops, stops', same => by
    obtain ⟨texts, rests⟩ := Leaf.cut sound sound' stops stops' same
    exact ⟨congrArg leaf (String.toList_inj.mp texts), rests⟩
  | .leaf _, .list items, _, _, sound, _, _, _, same => absurd same (Leaf.ne_list sound items)
  | .list items, .leaf _, _, _, _, sound', _, _, same => absurd same.symm (Leaf.ne_list sound' items)
  | .list [], .list [], _, _, _, _, _, _, same => ⟨rfl, List.append_cancel_left same⟩
  | .list [], .list (_ :: _), _, _, _, sound', _, _, same => by
    simp only [Datum.text, List.cons_append, List.append_assoc, List.nil_append, List.cons.injEq,
      true_and] at same
    exact absurd same.symm (text_ne_close sound'.1)
  | .list (_ :: _), .list [], _, _, sound, _, _, _, same => by
    simp only [Datum.text, List.cons_append, List.append_assoc, List.nil_append, List.cons.injEq,
      true_and] at same
    exact absurd same (text_ne_close sound.1)
  | .list (_ :: items), .list (_ :: items'), _, _, sound, sound', _, _, same => by
    simp only [Datum.text, List.cons_append, List.append_assoc, List.nil_append, List.cons.injEq,
      true_and] at same
    obtain ⟨rfl, behinds⟩ :=
      text_cut sound.1 sound'.1 (stops_behind items _) (stops_behind items' _) same
    obtain ⟨rfl, rests⟩ := behind_cut sound.2 sound'.2 behinds
    exact ⟨rfl, rests⟩

theorem behind_cut : ∀ {items others : List Datum} {rest more : List Char}, AllSound items → AllSound others →
    behind items ++ ')' :: rest = behind others ++ ')' :: more → items = others ∧ rest = more
  | [], [], _, _, _, _, same => ⟨rfl, List.tail_eq_of_cons_eq same⟩
  | [], _ :: _, _, _, _, _, same => absurd (List.head_eq_of_cons_eq same) (by decide)
  | _ :: _, [], _, _, _, _, same => absurd (List.head_eq_of_cons_eq same) (by decide)
  | _ :: items, _ :: others, _, _, sound, sound', same => by
    simp only [behind, List.cons_append, List.append_assoc, List.cons.injEq, true_and] at same
    obtain ⟨rfl, behinds⟩ :=
      text_cut sound.1 sound'.1 (stops_behind items _) (stops_behind others _) same
    obtain ⟨rfl, rests⟩ := behind_cut sound.2 sound'.2 behinds
    exact ⟨rfl, rests⟩

end

/-- No two data are written alike. -/
theorem eq_of_text {d e : Datum} (sound : d.Sound) (sound' : e.Sound) (same : d.text = e.text) : d = e :=
  (text_cut sound sound' stops_nil stops_nil (by rw [same])).1

end Datum

/-! ### Trees as data -/

/-- The names of parameters. -/
def Param.datum (params : List Param) : Datum :=
  .list (params.map fun param => .leaf param.name.lexeme)

mutual

def Expr.datum : Expr → Datum
  | .literal value => .leaf value.toSExpr
  | .unary operator right => .list [.leaf operator.lexeme, right.datum]
  | .binary left operator right => .list [.leaf operator.lexeme, left.datum, right.datum]
  | .logical left operator right => .list [.leaf operator.lexeme, left.datum, right.datum]
  | .ternary condition thenBranch elseBranch =>
    .list [.leaf "?:", condition.datum, thenBranch.datum, elseBranch.datum]
  | .grouping inner => .list [.leaf "group", inner.datum]
  | .variable _ name => .leaf name.lexeme
  | .assign _ name value => .list [.leaf "=", .leaf name.lexeme, value.datum]
  | .call callee _ arguments => .list (.leaf "call" :: callee.datum :: Expr.data arguments)
  | .function decl => .list (.leaf "fun" :: decl.data)
  | .get object name => .list [.leaf ".", object.datum, .leaf name.lexeme]
  | .set object name value => .list [.leaf ".=", object.datum, .leaf name.lexeme, value.datum]
  | .this _ _ => .leaf "this"

def Expr.data : List Expr → List Datum
  | [] => []
  | expr :: rest => expr.datum :: Expr.data rest

def Stmt.datum : Stmt → Datum
  | .expression value => .list [.leaf "expr", value.datum]
  | .print value => .list [.leaf "print", value.datum]
  | .var _ name none => .list [.leaf "var", .leaf name.lexeme]
  | .var _ name (some initial) => .list [.leaf "var", .leaf name.lexeme, initial.datum]
  | .block body => .list (.leaf "block" :: Stmt.data body)
  | .branch condition thenBranch none => .list [.leaf "if", condition.datum, thenBranch.datum]
  | .branch condition thenBranch (some elseBranch) =>
    .list [.leaf "if", condition.datum, thenBranch.datum, elseBranch.datum]
  | .loop condition body => .list [.leaf "while", condition.datum, body.datum]
  | .function _ name decl => .list (.leaf "fun" :: .leaf name.lexeme :: decl.data)
  | .ret _ none => .list [.leaf "return"]
  | .ret _ (some value) => .list [.leaf "return", value.datum]
  | .class _ name _ fields methods =>
    .list (.leaf "class" :: .leaf name.lexeme :: (FieldDecl.data fields ++ FunctionDecl.methodData methods))

def Stmt.data : List Stmt → List Datum
  | [] => []
  | stmt :: rest => stmt.datum :: Stmt.data rest

/-- The parameters of a function and the statements of its body. -/
def FunctionDecl.data : FunctionDecl → List Datum
  | .mk _ _ params body => Param.datum params :: Stmt.data body

def FunctionDecl.methodData : List FunctionDecl → List Datum
  | [] => []
  | method :: rest =>
    .list (.leaf "method" :: .leaf (method.name.elim "" (·.lexeme)) :: method.data) ::
      FunctionDecl.methodData rest

def FieldDecl.datum : FieldDecl → Datum
  | .mk name none => .list [.leaf "field", .leaf name.lexeme]
  | .mk name (some initial) => .list [.leaf "field", .leaf name.lexeme, initial.datum]

def FieldDecl.data : List FieldDecl → List Datum
  | [] => []
  | field :: rest => field.datum :: FieldDecl.data rest

end

open Datum (behind)

theorem Datum.behind_append (one two : List Datum) : behind (one ++ two) = behind one ++ behind two := by
  induction one with
  | nil => rfl
  | cons item rest ih => simp only [List.cons_append, behind, ih, List.append_assoc]

theorem Datum.behind_names (names : List String) (name : String) :
    " ".toList.intercalate ((name :: names).map String.toList) =
      name.toList ++ behind (names.map .leaf) := by
  induction names generalizing name with
  | nil => simp
  | cons next rest ih =>
    rw [List.map_cons, List.map_cons, List.intercalate_cons_cons, ← List.map_cons, ih next]
    simp

theorem Param.toList_listText (params : List Param) :
    (Param.listText params).toList = (Param.datum params).text := by
  cases params with
  | nil => rfl
  | cons param rest =>
    have names := Datum.behind_names (rest.map (·.name.lexeme)) param.name.lexeme
    rw [Param.listText, String.toList_append, String.toList_append, String.toList_intercalate,
      List.map_cons, names]
    simp [Param.datum, Function.comp_def]

theorem FunctionDecl.behind_data (decl : FunctionDecl) : behind decl.data =
    ' ' :: ((Param.datum decl.params).text ++ behind (Stmt.data decl.body)) := by
  cases decl
  rfl

mutual

theorem Expr.toList_append : ∀ (e : Expr) (out : String),
    (e.append out).toList = out.toList ++ e.datum.text
  | .literal value, out => String.toList_append
  | .unary operator right, out => by
    simp [Expr.append, Expr.datum, Expr.toList_append right]
  | .binary left operator right, out => by
    simp [Expr.append, Expr.datum, Expr.toList_append left, Expr.toList_append right]
  | .logical left operator right, out => by
    simp [Expr.append, Expr.datum, Expr.toList_append left, Expr.toList_append right]
  | .ternary condition thenBranch elseBranch, out => by
    simp [Expr.append, Expr.datum, Expr.toList_append condition,
      Expr.toList_append thenBranch, Expr.toList_append elseBranch]
  | .grouping inner, out => by
    simp [Expr.append, Expr.datum, Expr.toList_append inner]
  | .variable _ name, out => String.toList_append
  | .assign _ name value, out => by
    simp [Expr.append, Expr.datum, Expr.toList_append value]
  | .call callee _ arguments, out => by
    simp [Expr.append, Expr.datum, Expr.toList_append callee,
      Expr.toList_appendAll arguments]
  | .function decl, out => by
    simp [Expr.append, Expr.datum, FunctionDecl.toList_append decl, FunctionDecl.behind_data]
  | .get object name, out => by
    simp [Expr.append, Expr.datum, Expr.toList_append object]
  | .set object name value, out => by
    simp [Expr.append, Expr.datum, Expr.toList_append object, Expr.toList_append value]
  | .this _ _, out => String.toList_append

theorem Expr.toList_appendAll : ∀ (es : List Expr) (out : String),
    (Expr.appendAll out es).toList = out.toList ++ behind (Expr.data es)
  | [], out => by simp [Expr.appendAll, Expr.data]
  | e :: rest, out => by
    simp [Expr.appendAll, Expr.data, Expr.toList_append e, Expr.toList_appendAll rest]

theorem Stmt.toList_append : ∀ (s : Stmt) (out : String),
    (s.append out).toList = out.toList ++ s.datum.text
  | .expression value, out => by
    simp [Stmt.append, Stmt.datum, Expr.toList_append value]
  | .print value, out => by
    simp [Stmt.append, Stmt.datum, Expr.toList_append value]
  | .var _ name none, out => by simp [Stmt.append, Stmt.datum]
  | .var _ name (some initial), out => by
    simp [Stmt.append, Stmt.datum, Expr.toList_append initial]
  | .block body, out => by
    simp [Stmt.append, Stmt.datum, Stmt.toList_appendAll body]
  | .branch condition thenBranch none, out => by
    simp [Stmt.append, Stmt.datum, Expr.toList_append condition,
      Stmt.toList_append thenBranch]
  | .branch condition thenBranch (some elseBranch), out => by
    simp [Stmt.append, Stmt.datum, Expr.toList_append condition,
      Stmt.toList_append thenBranch, Stmt.toList_append elseBranch]
  | .loop condition body, out => by
    simp [Stmt.append, Stmt.datum, Expr.toList_append condition,
      Stmt.toList_append body]
  | .function _ name decl, out => by
    simp [Stmt.append, Stmt.datum, FunctionDecl.toList_append decl, FunctionDecl.behind_data]
  | .ret _ none, out => by simp [Stmt.append, Stmt.datum]
  | .ret _ (some value), out => by
    simp [Stmt.append, Stmt.datum, Expr.toList_append value]
  | .class _ name _ fields methods, out => by
    simp [Stmt.append, Stmt.datum, Datum.behind_append,
      FunctionDecl.toList_appendMethods methods, FieldDecl.toList_appendAll fields]

theorem Stmt.toList_appendAll : ∀ (ss : List Stmt) (out : String),
    (Stmt.appendAll out ss).toList = out.toList ++ behind (Stmt.data ss)
  | [], out => by simp [Stmt.appendAll, Stmt.data]
  | s :: rest, out => by
    simp [Stmt.appendAll, Stmt.data, Stmt.toList_append s, Stmt.toList_appendAll rest]

/-- The text of a function closes the list that it stands in. -/
theorem FunctionDecl.toList_append : ∀ (decl : FunctionDecl) (out : String), (decl.append out).toList =
    out.toList ++ ((Param.datum decl.params).text ++ (behind (Stmt.data decl.body) ++ [')']))
  | .mk _ _ params body, out => by
    simp [FunctionDecl.append, FunctionDecl.params, FunctionDecl.body, Param.toList_listText,
      Stmt.toList_appendAll body]

theorem FunctionDecl.toList_appendMethods : ∀ (methods : List FunctionDecl) (out : String),
    (FunctionDecl.appendMethods out methods).toList =
      out.toList ++ behind (FunctionDecl.methodData methods)
  | [], out => by simp [FunctionDecl.appendMethods, FunctionDecl.methodData]
  | method :: rest, out => by
    simp [FunctionDecl.appendMethods, FunctionDecl.methodData, FunctionDecl.behind_data,
      FunctionDecl.toList_append method, FunctionDecl.toList_appendMethods rest]

theorem FieldDecl.toList_append : ∀ (field : FieldDecl) (out : String),
    (field.append out).toList = out.toList ++ field.datum.text
  | .mk name none, out => by simp [FieldDecl.append, FieldDecl.datum]
  | .mk name (some initial), out => by
    simp [FieldDecl.append, FieldDecl.datum, Expr.toList_append initial]

theorem FieldDecl.toList_appendAll : ∀ (fields : List FieldDecl) (out : String),
    (FieldDecl.appendAll out fields).toList = out.toList ++ behind (FieldDecl.data fields)
  | [], out => by simp [FieldDecl.appendAll, FieldDecl.data]
  | field :: rest, out => by
    simp [FieldDecl.appendAll, FieldDecl.data, FieldDecl.toList_append field,
      FieldDecl.toList_appendAll rest]

end

end Lox
