import Lox.Proofs.Derivation.Growth
import Lox.Proofs.Layered.Agreement

set_option autoImplicit false

/-! The parts of statements: what begins an expression, and initializers, variables, parameters and blocks,
accepted exactly as they are derived. -/

namespace Lox.Grammar

/-- The terminals that can begin an expression; besides them only a literal can. -/
def beginsExpression : Terminal → Bool
  | .symbol .leftParen | .symbol .bang | .symbol .minus | .keyword .falseWord
  | .keyword .trueWord | .keyword .nilWord | .keyword .funWord | .keyword .thisWord | .name => true
  | _ => false

theorem Rules.operand_begins {rules : Rules} {c after : Cursor} {e : Expr} {terminal : Terminal}
    (done : rules.operand c = .ok e after) (found : c.next.terminal? = some terminal) :
    beginsExpression terminal = true := by
  unfold Rules.operand at done
  rw [peek_bind] at done
  unfold Token.terminal? at found
  cases kind : c.next.kind with
  | symbol s =>
      rw [kind] at done found
      cases found
      cases s <;> first | rfl | cases done
  | keyword k =>
      rw [kind] at done found
      cases found
      cases k <;> first | rfl | cases done
  | identifier =>
      rw [kind] at found
      cases found
      rfl
  | _ =>
      rw [kind] at found
      cases found

namespace Place

variable {p : Place} {terminal : Terminal}

theorem Sees.other {wanted : Terminal} (sees : p.Sees terminal) (different : terminal ≠ wanted) :
    ¬p.Sees wanted :=
  fun also => different (Option.some.inj (sees.symm.trans also))

theorem next_of_sees {stop : Token} (sees : p.Sees terminal) :
    (p.cursor stop).next.terminal? = some terminal := by
  obtain ⟨tokens, nextId⟩ := p
  cases tokens with
  | nil => cases sees
  | cons t rest => exact sees

theorem enough (stop : Token) (p : Place) : 3 * p.tokens.length + 1 ≤ (p.cursor stop).depth := by
  change _ ≤ 4 * (p.tokens.length + 1)
  omega

end Place

namespace Derives

variable {stop : Token} {p q r : Place} {terminal : Terminal} {token : Token} {e : Expr}

theorem Passes.length (passes : Passes terminal p token q) :
    p.tokens.length = q.tokens.length + 1 := by
  obtain ⟨-, rfl⟩ := passes
  rfl

theorem Passes.sees (passes : Passes terminal p token q) : p.Sees terminal :=
  Accepts.sees_iff.mpr ⟨token, q, passes⟩

theorem Numbers.tokens {id : NodeId} (numbers : Numbers p id q) : q.tokens = p.tokens := by
  obtain ⟨-, rfl⟩ := numbers
  rfl

theorem Names.sees {params : List Param} (names : Names p params q) : p.Sees .name := by
  cases names with
  | last named => exact named.sees
  | more named => exact named.sees

theorem Names.length_pos {params : List Param} (names : Names p params q) : 0 < params.length := by
  cases names <;> exact Nat.succ_pos _

namespace Expression

theorem fewer (ends : stop.isEnd = true) (read : Expression stop p e q) :
    q.tokens.length < p.tokens.length := by
  have enough := Place.enough stop p
  obtain ⟨-, -, -, fewer, -⟩ := Reading.self.reaches_of_ok
    ((rulesAt_abreast _ enough enough).expression p.tokens.length .lowest (Nat.le_refl _)) ends rfl
    read
  exact fewer

theorem operand (read : Expression stop p e q) :
    ∃ depth left after, (rulesAt depth).operand (p.cursor stop) = .ok left after := by
  obtain ⟨depth, more⟩ : ∃ depth, (p.cursor stop).depth = depth + 1 :=
    ⟨4 * p.tokens.length + 3, rfl⟩
  unfold Expression parseExpression at read
  rw [more] at read
  obtain ⟨left, after, first, -⟩ := Outcome.ok_of_bind read
  exact ⟨depth, left, after, first⟩

theorem begins (read : Expression stop p e q) (sees : p.Sees terminal) :
    beginsExpression terminal = true := by
  obtain ⟨depth, left, after, first⟩ := read.operand
  exact Rules.operand_begins first (Place.next_of_sees sees)

theorem not_sees (read : Expression stop p e q) (other : beginsExpression terminal = false) :
    ¬p.Sees terminal := by
  intro sees
  rw [read.begins sees] at other
  cases other

/-- A function that is written as an expression has no name. -/
theorem not_named (read : Expression stop p e q)
    (isFunction : Passes (.keyword .funWord) p token r) : ¬r.Sees .name := by
  intro named
  obtain ⟨depth, left, after, first⟩ := read.operand
  obtain ⟨isFunction, rfl⟩ := isFunction
  have kind : token.kind = .keyword .funWord := by
    unfold Token.terminal? at isFunction
    split at isFunction <;> simp_all
  unfold Rules.operand at first
  rw [peek_bind, show (Place.cursor stop ⟨token :: r.tokens, r.nextId⟩).next = token from rfl, kind]
    at first
  dsimp only at first
  rw [advance_bind] at first
  obtain ⟨decl, middle, body, -⟩ := Outcome.ok_of_bind first
  obtain ⟨left, last, opens, -⟩ := Outcome.ok_of_bind body
  obtain ⟨same, isOpen, -⟩ := Rule.expect_eq_ok opens
  have next : (r.cursor stop).next.terminal? = some .name := Place.next_of_sees named
  rw [same] at isOpen
  exact absurd (next.symm.trans isOpen) (by decide)

end Expression
end Derives

/-- Rules that accept, at places with few enough tokens left, just what can be derived. -/
structure Rules.Speaks (rules : Rules) (stop : Token) (deep : Nat) : Prop where
  growing : rules.Growing
  ends : stop.isEnd = true
  abreast : Rules.Abreast .self deep rules rules
  expression : ∀ {p q : Place} {e : Expr}, 3 * p.tokens.length + 1 ≤ deep →
    (Accepts stop (rules.expression .lowest) p e q ↔ Derives.Expression stop p e q)
  statement : ∀ {p q : Place} {s : Stmt}, 3 * p.tokens.length + 2 ≤ deep →
    (Accepts stop rules.statement p s q ↔ Derives.Statement stop p s q)
  declaration : ∀ {p q : Place} {found : Option Stmt}, 3 * p.tokens.length + 3 ≤ deep →
    (Accepts stop rules.declaration p found q ↔
      ∃ s, found = some s ∧ Derives.Declaration stop p s q)

namespace Rules.Speaks

open Derives Accepts

variable {rules : Rules} {stop : Token} {deep : Nat} (speaks : rules.Speaks stop deep)
  {p q r : Place} {s : Stmt}
include speaks

theorem statement_fewer (fits : 3 * p.tokens.length + 2 ≤ deep) (derived : Statement stop p s q) :
    q.tokens.length < p.tokens.length := by
  obtain ⟨-, -, -, fewer, -⟩ := Reading.self.reaches_of_ok
    (speaks.abreast.statement p.tokens.length fits) speaks.ends rfl
    ((speaks.statement fits).mpr derived)
  exact fewer

theorem initializer_iff (fits : 3 * p.tokens.length ≤ deep) {initial : Option Expr}
    (ended : q.Sees (.symbol .semicolon)) :
    Accepts stop rules.initializer p initial q ↔ Initializer stop p initial q := by
  have := speaks.growing
  unfold Rules.initializer
  rw [accept_iff]
  simp only [if_true, Bool.false_eq_true, if_false]
  constructor
  · rintro (⟨equals, r, equal, read⟩ | ⟨-, none⟩)
    · have shorter := equal.length
      obtain ⟨value, inner, rfl⟩ := fmap_iff.mp read
      exact .present equal ((speaks.expression (by omega)).mp inner)
    · obtain ⟨rfl, rfl⟩ := pure_iff.mp none
      exact .absent _
  · intro derived
    cases derived with
    | absent => exact .inr ⟨ended.other (by decide), pure_iff.mpr ⟨rfl, rfl⟩⟩
    | present equal read =>
        have shorter := equal.length
        exact .inl ⟨_, _, equal, fmap_iff.mpr ⟨_, (speaks.expression (by omega)).mpr read, rfl⟩⟩

theorem varDeclaration_iff {keyword : Token} (opens : Passes (.keyword .varWord) p keyword q)
    (fits : 3 * q.tokens.length ≤ deep) :
    Accepts stop rules.varDeclaration q s r ↔ VarDeclaration stop p s r := by
  have := speaks.growing
  unfold Rules.varDeclaration
  constructor
  · intro done
    obtain ⟨name, q1, named, done⟩ := bind_iff.mp done
    obtain ⟨id, q2, node, done⟩ := bind_iff.mp done
    obtain ⟨initial, q3, value, done⟩ := bind_iff.mp done
    obtain ⟨semicolon, q4, ends, done⟩ := bind_iff.mp done
    obtain ⟨rfl, rfl⟩ := pure_iff.mp done
    have named := expect_iff.mp named
    have node := fresh_iff.mp node
    have ends := expect_iff.mp ends
    have shorter := named.length
    have same := node.tokens
    exact .mk opens named node
      ((speaks.initializer_iff (by rw [same]; omega) ends.sees).mp value) ends
  · intro derived
    cases derived with
    | mk again named node value ends =>
        obtain ⟨-, rfl⟩ := passes_unique opens again
        have shorter := named.length
        have same := node.tokens
        exact bind_iff.mpr ⟨_, _, expect_iff.mpr named, bind_iff.mpr ⟨_, _, fresh_iff.mpr node,
          bind_iff.mpr ⟨_, _, (speaks.initializer_iff (by rw [same]; omega) ends.sees).mpr value,
            bind_iff.mpr ⟨_, _, expect_iff.mpr ends, pure_iff.mpr ⟨rfl, rfl⟩⟩⟩⟩⟩

theorem expressionStatement_iff (fits : 3 * p.tokens.length + 1 ≤ deep) :
    Accepts stop rules.expressionStatement p s q ↔ ExpressionStatement stop p s q := by
  have := speaks.growing
  unfold Rules.expressionStatement
  constructor
  · intro done
    obtain ⟨value, r, read, done⟩ := bind_iff.mp done
    obtain ⟨semicolon, t, ends, done⟩ := bind_iff.mp done
    obtain ⟨rfl, rfl⟩ := pure_iff.mp done
    exact .mk ((speaks.expression fits).mp read) (expect_iff.mp ends)
  · intro derived
    cases derived with
    | mk read ends =>
        exact bind_iff.mpr ⟨_, _, (speaks.expression fits).mpr read,
          bind_iff.mpr ⟨_, _, expect_iff.mpr ends, pure_iff.mpr ⟨rfl, rfl⟩⟩⟩

omit speaks in
/-- A round reads one more name if there is room for it. A comma behind the name leads to another round;
without one the names are complete. -/
theorem parameterRound_iff {found : List Param} {outcome : Rule.Round (List Param) (List Param)} :
    Accepts stop (parameterRound found) p outcome q ↔ found.length < 255 ∧
      ∃ name id, ∃ middle after : Place, Passes .name p name middle ∧ Numbers middle id after ∧
        ((∃ comma, Passes (.symbol .comma) after comma q ∧ outcome = .again (⟨id, name⟩ :: found)) ∨
          ¬after.Sees (.symbol .comma) ∧ outcome = .finish (⟨id, name⟩ :: found).reverse ∧ q = after) := by
  unfold parameterRound
  by_cases many : 255 ≤ found.length
  · rw [if_pos (show maxArity ≤ found.length from many)]
    exact iff_of_false fail_iff fun done => Nat.not_lt.mpr many done.1
  · rw [if_neg (show ¬maxArity ≤ found.length from many)]
    constructor
    · intro done
      obtain ⟨name, middle, named, done⟩ := bind_iff.mp done
      obtain ⟨id, after, node, done⟩ := bind_iff.mp done
      refine ⟨Nat.lt_of_not_le many, name, id, middle, after, expect_iff.mp named, fresh_iff.mp node, ?_⟩
      rcases accept_iff.mp done with ⟨comma, last, separator, done⟩ | ⟨none, done⟩
      · obtain ⟨same, rfl⟩ := pure_iff.mp done
        exact .inl ⟨comma, separator, same⟩
      · exact .inr ⟨none, pure_iff.mp done⟩
    · rintro ⟨-, name, id, middle, after, named, node, further⟩
      refine bind_iff.mpr ⟨name, middle, expect_iff.mpr named, bind_iff.mpr ⟨id, after, fresh_iff.mpr node,
        accept_iff.mpr ?_⟩⟩
      rcases further with ⟨comma, separator, same⟩ | ⟨none, done⟩
      · exact .inl ⟨comma, q, separator, pure_iff.mpr ⟨same, rfl⟩⟩
      · exact .inr ⟨none, pure_iff.mpr done⟩

omit speaks in
/-- Names are read one after the other, with no more than 255 of them in all. -/
theorem names_iff {params : List Param} (ended : ¬q.Sees (.symbol .comma)) :
    ∀ {bound : Nat} {p : Place} {found : List Param}, p.tokens.length < bound →
      (Accepts stop (Rule.iterate parameterRound bound found) p params q ↔
        ∃ names, Names p names q ∧ found.length + names.length ≤ 255 ∧
          params = found.reverse ++ names)
  | 0, p, found, enough => absurd enough (Nat.not_lt_zero _)
  | bound + 1, p, found, enough => by
      rw [iterate_iff]
      constructor
      · rintro (⟨next, r, round, rest⟩ | round)
        · obtain ⟨-, name, id, p1, p2, named, node, ⟨comma, separator, same⟩ | ⟨-, impossible, -⟩⟩ :=
            parameterRound_iff.mp round
          · cases same
            have shorter := named.length
            have same := congrArg List.length node.tokens
            have passed := separator.length
            obtain ⟨names, derived, few, rfl⟩ := (names_iff ended (by omega)).mp rest
            refine ⟨_, .more named node separator derived, ?_, ?_⟩
            · simp only [List.length_cons] at few ⊢
              omega
            · rw [List.reverse_cons, List.append_assoc]
              rfl
          · cases impossible
        · obtain ⟨room, name, id, p1, p2, named, node, ⟨comma, -, impossible⟩ | ⟨-, same, rfl⟩⟩ :=
            parameterRound_iff.mp round
          · cases impossible
          · cases same
            exact ⟨_, .last named node, room, List.reverse_cons⟩
      · rintro ⟨names, derived, few, rfl⟩
        have some := derived.length_pos
        have room : found.length < 255 := by omega
        cases derived with
        | last named node =>
            refine .inr (parameterRound_iff.mpr ⟨room, _, _, _, _, named, node, .inr ⟨ended, ?_, rfl⟩⟩)
            rw [List.reverse_cons]
        | more named node separator rest =>
            have shorter := named.length
            have same := congrArg List.length node.tokens
            have passed := separator.length
            refine .inl ⟨_, _, parameterRound_iff.mpr ⟨room, _, _, _, _, named, node,
              .inl ⟨_, separator, rfl⟩⟩, (names_iff ended (by omega)).mpr ⟨_, rest, ?_, ?_⟩⟩
            · simp only [List.length_cons] at few ⊢
              omega
            · rw [List.reverse_cons, List.append_assoc]
              rfl

theorem parameters_iff (enough : p.tokens.length < deep) {params : List Param}
    (ended : q.Sees (.symbol .rightParen)) :
    Accepts stop rules.parameters p params q ↔ Parameters p params q := by
  have bound := speaks.abreast.bound
  unfold Rules.parameters
  rw [check_iff]
  simp only [if_true, Bool.false_eq_true, if_false]
  rw [names_iff (ended.other (by decide)) (by omega)]
  constructor
  · rintro (⟨-, none⟩ | ⟨-, names, derived, few, rfl⟩)
    · obtain ⟨rfl, rfl⟩ := pure_iff.mp none
      exact .absent _
    · exact .present derived (by simpa using few)
  · intro derived
    cases derived with
    | absent => exact .inl ⟨ended, pure_iff.mpr ⟨rfl, rfl⟩⟩
    | present names few =>
        exact .inr ⟨names.sees.other (by decide), params, names, by simpa using few, rfl⟩

end Rules.Speaks
end Lox.Grammar
