import Lox.Proofs.Dump.Legible
import Lox.Proofs.Dump.Reading

set_option autoImplicit false

/-! The text of a tree determines the tree, node numbers and byte positions apart: strings hold no quotes, names
are neither keywords nor numbers, and different numbers are written differently. So every leaf is a word or
stands in quotes, and what is read back from the datum of a legible tree is the tree. -/

namespace Lox

namespace Legible

open Datum (Leaf AllSound atom sign)

/-! ### Leaves -/

theorem leaf_of_isName {text : String} (name : IsName text) : Leaf text.toList := by
  obtain ⟨c, rest, spelled, -⟩ := name.begins
  exact .word (spelled ▸ List.cons_ne_nil c rest) name.parts

theorem leaf_name {t : Token} (known : token .identifier t) : Leaf t.lexeme.toList :=
  leaf_of_isName (isName_of_token known)

theorem leaf_operator {s : Symbol} {t : Token} (known : token (.symbol s) t)
    (isOperator : s = .bang ∨ s.isBinary = true) : Leaf t.lexeme.toList := by
  rw [lexeme_of_symbol known]
  cases s <;> first
    | exact .of_all (by decide)
    | exact absurd isOperator (by decide)

theorem leaf_connective {k : Keyword} {t : Token} (known : token (.keyword k) t) : Leaf t.lexeme.toList := by
  rw [lexeme_of_keyword known]
  cases k <;> exact .of_all (by decide)

theorem isWordPart_of_isDigit {c : Char} (digit : c.isDigit = true) : Datum.isWordPart c = true :=
  Token.isWordPart_of_isNamePart (by simp [Token.isNamePart, Char.isAlphanum, digit])

theorem leaf_numeral {text : List Char} {q : ℚ} (numeral : Decimal.Numeral text q) : Leaf text := by
  cases numeral with
  | whole some all => exact .word some fun c member => isWordPart_of_isDigit (all c member)
  | @pointed digits fraction some all allMore =>
    refine .word (by simp) fun c member => ?_
    rcases List.mem_append.mp member with front | behind
    · exact isWordPart_of_isDigit (all c front)
    · rcases List.mem_cons.mp behind with rfl | digit
      · decide
      · exact isWordPart_of_isDigit (allMore c digit)

theorem leaf_literal {value : Literal} (legible : value.Legible) : Leaf value.toSExpr.toList := by
  cases value with
  | nil => exact .of_all (by decide)
  | bool b => cases b <;> exact .of_all (by decide)
  | number x =>
    obtain ⟨q, numeral, -⟩ := Decimal.magnitudeText_rounds x.toBits.toNat
    rw [Literal.toSExpr, Decimal.format_plain legible]
    exact leaf_numeral numeral
  | string contents =>
    have spelled : ("\"" ++ contents ++ "\"").toList = '"' :: (contents.toList ++ ['"']) := by simp
    rw [Literal.toSExpr, spelled]
    exact .quoted legible

theorem sound_params {parameters : List Param} (legible : params parameters) :
    (Param.datum parameters).Sound := by
  rw [Param.datum, Datum.Sound]
  induction parameters with
  | nil => trivial
  | cons param rest ih =>
    exact ⟨leaf_name (legible param List.mem_cons_self),
      ih fun other member => legible other (List.mem_cons_of_mem _ member)⟩

theorem sound_append {one two : List Datum} (first : AllSound one) (second : AllSound two) :
    AllSound (one ++ two) := by
  induction one with
  | nil => exact second
  | cons item rest ih => exact ⟨first.1, ih first.2⟩

mutual

theorem sound_expr : ∀ {e : Expr}, expr e → e.datum.Sound
  | .literal _, legible => leaf_literal legible
  | .unary _ _, ⟨operator, right⟩ =>
    ⟨operator.elim (leaf_operator · (.inl rfl)) (leaf_operator · (.inr rfl)), sound_expr right, trivial⟩
  | .binary _ _ _, ⟨⟨_, operator, isBinary⟩, left, right⟩ =>
    ⟨leaf_operator operator (.inr isBinary), sound_expr left, sound_expr right, trivial⟩
  | .logical _ _ _, ⟨operator, left, right⟩ =>
    ⟨operator.elim leaf_connective leaf_connective, sound_expr left, sound_expr right, trivial⟩
  | .ternary _ _ _, ⟨condition, one, other⟩ =>
    ⟨Leaf.of_all (by decide), sound_expr condition, sound_expr one, sound_expr other, trivial⟩
  | .grouping _, inner => ⟨Leaf.of_all (by decide), sound_expr inner, trivial⟩
  | .variable _ _, name => leaf_name name
  | .assign _ _ _, ⟨name, value⟩ => ⟨Leaf.of_all (by decide), leaf_name name, sound_expr value, trivial⟩
  | .call _ _ _, ⟨_, callee, arguments⟩ => ⟨Leaf.of_all (by decide), sound_expr callee, sound_exprs arguments⟩
  | .function (.mk _ _ _ _), ⟨_, _, names, body⟩ =>
    ⟨Leaf.of_all (by decide), sound_params names, sound_stmts body⟩
  | .get _ _, ⟨name, object⟩ => ⟨Leaf.of_all (by decide), sound_expr object, leaf_name name, trivial⟩
  | .set _ _ _, ⟨name, object, value⟩ =>
    ⟨Leaf.of_all (by decide), sound_expr object, leaf_name name, sound_expr value, trivial⟩
  | .this _ _, _ => Leaf.of_all (by decide)

theorem sound_exprs : ∀ {es : List Expr}, exprs es → AllSound (Expr.data es)
  | [], _ => trivial
  | _ :: _, ⟨e, rest⟩ => ⟨sound_expr e, sound_exprs rest⟩

theorem sound_stmt : ∀ {s : Stmt}, stmt s → s.datum.Sound
  | .expression _, value => ⟨Leaf.of_all (by decide), sound_expr value, trivial⟩
  | .print _, value => ⟨Leaf.of_all (by decide), sound_expr value, trivial⟩
  | .var _ _ none, name => ⟨Leaf.of_all (by decide), leaf_name name, trivial⟩
  | .var _ _ (some _), ⟨name, initial⟩ =>
    ⟨Leaf.of_all (by decide), leaf_name name, sound_expr initial, trivial⟩
  | .block _, body => ⟨Leaf.of_all (by decide), sound_stmts body⟩
  | .branch _ _ none, ⟨condition, one⟩ =>
    ⟨Leaf.of_all (by decide), sound_expr condition, sound_stmt one, trivial⟩
  | .branch _ _ (some _), ⟨condition, one, other⟩ =>
    ⟨Leaf.of_all (by decide), sound_expr condition, sound_stmt one, sound_stmt other, trivial⟩
  | .loop _ _, ⟨condition, body⟩ =>
    ⟨Leaf.of_all (by decide), sound_expr condition, sound_stmt body, trivial⟩
  | .function _ _ (.mk _ _ _ _), ⟨name, _, _, names, body⟩ =>
    ⟨Leaf.of_all (by decide), leaf_name name, sound_params names, sound_stmts body⟩
  | .ret _ none, _ => ⟨Leaf.of_all (by decide), trivial⟩
  | .ret _ (some _), ⟨_, value⟩ => ⟨Leaf.of_all (by decide), sound_expr value, trivial⟩
  | .class _ _ _ _ _, ⟨name, members, decls⟩ =>
    ⟨Leaf.of_all (by decide), leaf_name name, sound_append (sound_fields members) (sound_methods decls)⟩

theorem sound_stmts : ∀ {ss : List Stmt}, stmts ss → AllSound (Stmt.data ss)
  | [], _ => trivial
  | _ :: _, ⟨s, rest⟩ => ⟨sound_stmt s, sound_stmts rest⟩

theorem sound_methods : ∀ {decls : List FunctionDecl}, methods decls → AllSound (FunctionDecl.methodData decls)
  | [], _ => trivial
  | .mk (some _) _ _ _ :: _, ⟨⟨name, _, names, body⟩, rest⟩ =>
    ⟨⟨Leaf.of_all (by decide), leaf_name name, sound_params names, sound_stmts body⟩, sound_methods rest⟩

theorem sound_fields : ∀ {decls : List FieldDecl}, fields decls → AllSound (FieldDecl.data decls)
  | [], _ => trivial
  | .mk _ none :: _, ⟨name, rest⟩ =>
    ⟨⟨Leaf.of_all (by decide), leaf_name name, trivial⟩, sound_fields rest⟩
  | .mk _ (some _) :: _, ⟨⟨name, initial⟩, rest⟩ =>
    ⟨⟨Leaf.of_all (by decide), leaf_name name, sound_expr initial, trivial⟩, sound_fields rest⟩

end

/-! ### Reading back -/

theorem stripped_eq {kind : Token.Kind} {t : Token} (known : token kind t) :
    t.stripped = ⟨kind, t.lexeme, 0⟩ := by
  rw [Token.stripped, known.2]

theorem stripped_keyword {k : Keyword} {t : Token} (known : token (.keyword k) t) :
    t.stripped = ⟨.keyword k, k.text, 0⟩ := by
  rw [stripped_eq known, lexeme_of_keyword known]

theorem sign_symbol {s : Symbol} {t : Token} (known : token (.symbol s) t) : sign t.lexeme = t.stripped := by
  rw [stripped_eq known, lexeme_of_symbol known, sign, Token.readSymbol?_text]

theorem read_name {t : Token} (known : token .identifier t) : (Datum.leaf t.lexeme).name = t.stripped :=
  (stripped_eq known).symm

theorem read_params {parameters : List Param} (legible : params parameters) :
    (Param.datum parameters).params = parameters.map Param.stripped := by
  rw [Param.datum, Datum.params, List.map_map]
  refine List.map_congr_left fun param member => ?_
  rw [Function.comp_apply, read_name (legible param member), Param.stripped]

theorem atom_name {text : String} (name : IsName text) :
    atom text = .variable 0 ⟨.identifier, text, 0⟩ := by
  obtain ⟨c, rest, spelled, notDigit⟩ := name.begins
  have notQuote : c ≠ '"' := by
    rintro rfl
    exact absurd (name.parts '"' (spelled ▸ List.mem_cons_self)) (by decide)
  have kind := Token.wordKind_name fun k same => name.other k (String.toList_inj.mp same)
  rw [String.ofList_toList] at kind
  simp [atom, spelled, notDigit, notQuote, kind]

theorem atom_keyword (k : Keyword) : atom k.text = match Token.Kind.keyword k with
    | .keyword .nilWord => .literal .nil
    | .keyword .trueWord => .literal (.bool true)
    | .keyword .falseWord => .literal (.bool false)
    | .keyword .thisWord => .this 0 ⟨.keyword .thisWord, k.text, 0⟩
    | _ => .variable 0 ⟨.identifier, k.text, 0⟩ := by
  cases k <;> rfl

theorem numeral_begins {text : List Char} {q : ℚ} (numeral : Decimal.Numeral text q) :
    ∃ c rest, text = c :: rest ∧ c.isDigit = true := by
  cases numeral with
  | whole some all =>
    obtain ⟨c, rest, rfl⟩ := List.exists_cons_of_ne_nil some
    exact ⟨c, rest, rfl, all c List.mem_cons_self⟩
  | pointed some all =>
    obtain ⟨c, rest, rfl⟩ := List.exists_cons_of_ne_nil some
    exact ⟨c, _, rfl, all c List.mem_cons_self⟩

theorem atom_literal {value : Literal} (legible : value.Legible) :
    atom value.toSExpr = .literal value := by
  cases value with
  | nil => exact atom_keyword .nilWord
  | bool b => cases b with
    | true => exact atom_keyword .trueWord
    | false => exact atom_keyword .falseWord
  | number x =>
    obtain ⟨q, numeral, -⟩ := Decimal.magnitudeText_rounds x.toBits.toNat
    rw [← Decimal.format_plain legible] at numeral
    obtain ⟨c, rest, spelled, digit⟩ := numeral_begins numeral
    have notQuote : c ≠ '"' := by
      rintro rfl
      exact absurd digit (by decide)
    have number : Datum.number (Decimal.format Literal.numberStyle x) = x :=
      Decimal.format_injOn.leftInvOn_invFunOn legible
    simp [Literal.toSExpr, atom, spelled, digit, notQuote, number]
  | string contents => simp [Literal.toSExpr, atom]

mutual

theorem read_expr : ∀ {e : Expr}, expr e → e.datum.expr = e.stripped
  | .literal _, legible => by
    rw [Expr.datum, Datum.expr, atom_literal legible, Expr.stripped]
  | .unary operator right, ⟨known, legible⟩ => by
    obtain ⟨s, known⟩ : ∃ s, token (.symbol s) operator := known.elim (⟨_, ·⟩) (⟨_, ·⟩)
    rw [Expr.datum, lexeme_of_symbol known, Datum.expr_unary, ← lexeme_of_symbol known, sign_symbol known,
      read_expr legible, Expr.stripped]
  | .binary left operator right, ⟨⟨s, known, isBinary⟩, one, other⟩ => by
    rw [Expr.datum, lexeme_of_symbol known, Datum.expr_binary isBinary, ← lexeme_of_symbol known,
      sign_symbol known, read_expr one, read_expr other, Expr.stripped]
  | .logical left operator right, ⟨known, one, other⟩ => by
    rcases known with known | known <;>
      simp [Expr.datum, Expr.stripped, lexeme_of_keyword known, stripped_keyword known, Keyword.text,
        Datum.expr, read_expr one, read_expr other]
  | .ternary _ _ _, ⟨condition, one, other⟩ => by
    simp [Expr.datum, Expr.stripped, Datum.expr, read_expr condition, read_expr one, read_expr other]
  | .grouping inner, legible => by
    have reads : inner.datum.expr = inner.stripped := read_expr legible
    simp [Expr.datum, Expr.stripped, Datum.expr, reads]
  | .variable _ name, known => by
    rw [Expr.datum, Datum.expr, atom_name (isName_of_token known), Expr.stripped, stripped_eq known]
  | .assign _ _ _, ⟨name, value⟩ => by
    simp [Expr.datum, Expr.stripped, Datum.expr, read_name name, read_expr value]
  | .call _ paren _, ⟨known, callee, arguments⟩ => by
    have parenthesis : paren.stripped = ⟨.symbol .leftParen, "(", 0⟩ := by
      rw [stripped_eq known, lexeme_of_symbol known, Symbol.text]
    simp [Expr.datum, Expr.stripped, Datum.expr, parenthesis, read_expr callee, read_exprs arguments]
  | .function (.mk _ _ _ _), ⟨rfl, rfl, names, body⟩ => by
    simp [Expr.datum, Expr.stripped, FunctionDecl.data, FunctionDecl.stripped, Datum.expr, read_params names,
      read_stmts body]
  | .get _ _, ⟨name, object⟩ => by
    simp [Expr.datum, Expr.stripped, Datum.expr, read_name name, read_expr object]
  | .set _ _ _, ⟨name, object, value⟩ => by
    simp [Expr.datum, Expr.stripped, Datum.expr, read_name name, read_expr object, read_expr value]
  | .this _ _, keyword => by
    rw [Expr.datum, Datum.expr, Expr.stripped, stripped_keyword keyword]
    exact atom_keyword .thisWord

theorem read_exprs : ∀ {es : List Expr}, exprs es → Datum.exprs (Expr.data es) = Expr.allStripped es
  | [], _ => rfl
  | _ :: _, ⟨e, rest⟩ => by
    rw [Expr.data, Datum.exprs, read_expr e, read_exprs rest, Expr.allStripped]

theorem read_stmt : ∀ {s : Stmt}, stmt s → s.datum.stmt = s.stripped
  | .expression _, value => by
    simp [Stmt.datum, Stmt.stripped, Datum.stmt, read_expr value]
  | .print _, value => by
    simp [Stmt.datum, Stmt.stripped, Datum.stmt, read_expr value]
  | .var _ _ none, name => by
    simp [Stmt.datum, Stmt.stripped, Datum.stmt, read_name name]
  | .var _ _ (some _), ⟨name, initial⟩ => by
    simp [Stmt.datum, Stmt.stripped, Datum.stmt, read_name name, read_expr initial]
  | .block _, body => by
    simp [Stmt.datum, Stmt.stripped, Datum.stmt, read_stmts body]
  | .branch _ _ none, ⟨condition, one⟩ => by
    simp [Stmt.datum, Stmt.stripped, Datum.stmt, read_expr condition, read_stmt one]
  | .branch _ _ (some _), ⟨condition, one, other⟩ => by
    simp [Stmt.datum, Stmt.stripped, Datum.stmt, read_expr condition, read_stmt one, read_stmt other]
  | .loop _ _, ⟨condition, body⟩ => by
    simp [Stmt.datum, Stmt.stripped, Datum.stmt, read_expr condition, read_stmt body]
  | .function _ _ (.mk _ _ _ _), ⟨name, rfl, rfl, names, body⟩ => by
    simp [Stmt.datum, Stmt.stripped, FunctionDecl.data, FunctionDecl.stripped, Datum.stmt, read_name name,
      read_params names, read_stmts body]
  | .ret _ none, keyword => by
    simp [Stmt.datum, Stmt.stripped, Datum.stmt, stripped_keyword keyword, Keyword.text]
  | .ret _ (some _), ⟨keyword, value⟩ => by
    simp [Stmt.datum, Stmt.stripped, Datum.stmt, stripped_keyword keyword, Keyword.text, read_expr value]
  | .class _ _ _ _ _, ⟨name, members, decls⟩ => by
    simp [Stmt.datum, Stmt.stripped, Datum.stmt, Datum.methods_data_append, read_name name,
      read_fields members, read_methods decls]

theorem read_stmts : ∀ {ss : List Stmt}, stmts ss → Datum.stmts (Stmt.data ss) = Stmt.allStripped ss
  | [], _ => rfl
  | _ :: _, ⟨s, rest⟩ => by
    rw [Stmt.data, Datum.stmts, read_stmt s, read_stmts rest, Stmt.allStripped]

theorem read_methods : ∀ {decls : List FunctionDecl}, methods decls →
    Datum.methods (FunctionDecl.methodData decls) = FunctionDecl.allStripped decls
  | [], _ => rfl
  | .mk (some method) _ _ _ :: _, ⟨⟨name, rfl, names, body⟩, rest⟩ => by
    have kind : Grammar.Rules.methodKind method.stripped = Grammar.Rules.methodKind method := rfl
    simp [FunctionDecl.methodData, FunctionDecl.data, FunctionDecl.allStripped, FunctionDecl.stripped,
      FunctionDecl.name, Datum.methods, kind, read_name name, read_params names, read_stmts body,
      read_methods rest]

/-- Behind the fields of a class there are its methods. -/
theorem read_fields : ∀ {decls : List FieldDecl} {more : List FunctionDecl}, fields decls →
    Datum.fields (FieldDecl.data decls ++ FunctionDecl.methodData more) = FieldDecl.allStripped decls
  | [], more, _ => Datum.fields_methodData more
  | .mk _ none :: _, _, ⟨name, rest⟩ => by
    simp [FieldDecl.data, FieldDecl.datum, FieldDecl.allStripped, FieldDecl.stripped, Datum.fields,
      read_name name, read_fields rest]
  | .mk _ (some _) :: _, _, ⟨⟨name, initial⟩, rest⟩ => by
    simp [FieldDecl.data, FieldDecl.datum, FieldDecl.allStripped, FieldDecl.stripped, Datum.fields,
      read_name name, read_expr initial, read_fields rest]

end

end Legible

theorem Stmt.toList_toSExpr (s : Stmt) : s.toSExpr.toList = s.datum.text := by
  rw [Stmt.toSExpr, Stmt.toList_append, String.toList_empty, List.nil_append]

namespace Legible

/-- Legible statements with the same text differ in numbers and positions only. -/
theorem stripped_eq_of_toSExpr {s s' : Stmt} (legible : stmt s) (legible' : stmt s')
    (same : s.toSExpr = s'.toSExpr) : s.stripped = s'.stripped := by
  have texts : s.datum.text = s'.datum.text := by
    rw [← Stmt.toList_toSExpr, ← Stmt.toList_toSExpr, same]
  rw [← read_stmt legible, ← read_stmt legible',
    Datum.eq_of_text (sound_stmt legible) (sound_stmt legible') texts]

theorem map_stripped_eq : ∀ {ss ss' : List Stmt}, stmts ss → stmts ss' →
    ss.map Stmt.toSExpr = ss'.map Stmt.toSExpr → ss.map Stmt.stripped = ss'.map Stmt.stripped
  | [], [], _, _, _ => rfl
  | s :: rest, s' :: rest', ⟨one, more⟩, ⟨one', more'⟩, same => by
    obtain ⟨texts, rests⟩ := List.cons.inj same
    rw [List.map_cons, List.map_cons, stripped_eq_of_toSExpr one one' texts,
      map_stripped_eq more more' rests]

end Legible

namespace Grammar

variable {base base' : Nat} {text text' : List Char} {firstId firstId' : NodeId}

/-- Two programs whose trees have the same text, statement by statement, have the same trees, node numbers and
byte positions apart. This is true of whatever was read, errors or not, as long as no number is infinite: such a
number is written like the variable `inf`. -/
theorem text_determines_program (finite : ∀ t ∈ Token.ofText base text, t.IsFinite)
    (finite' : ∀ t ∈ Token.ofText base' text', t.IsFinite)
    (same : (parse (Token.ofText base text) firstId).statements.map Stmt.toSExpr =
      (parse (Token.ofText base' text') firstId').statements.map Stmt.toSExpr) :
    (parse (Token.ofText base text) firstId).statements.map Stmt.stripped =
      (parse (Token.ofText base' text') firstId').statements.map Stmt.stripped :=
  Legible.map_stripped_eq (parse_legible (Token.ofText_legible finite) firstId)
    (parse_legible (Token.ofText_legible finite') firstId') same

/-- The layout, the number of zeros and the position in a session do not show in the text. -/
theorem text_determines_program_of_loop :
    (parse (Token.ofText 0 "for (var i = 1; i < 2;) print -i + \"a b\";".toList) 0).statements.map
        Stmt.stripped =
      (parse (Token.ofText 7 "for(var i=1.00;i<2;)\x7b // twice\n print -i+\"a b\"; \x7d".toList) 5).statements.map
        Stmt.stripped :=
  text_determines_program (by decide +kernel) (by decide +kernel) (by decide +kernel)

end Grammar
end Lox
