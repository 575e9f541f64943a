import Lox.Proofs.Derivation.Parts

set_option autoImplicit false

/-! Statements, accepted exactly as they are derived. Which statement it is shows in its first token; a
branch without an alternative is complete only before a token that is not `else`. -/

namespace Lox.Grammar

/-- The terminals that can begin a statement; besides them only a literal can. -/
def opensStatement : Terminal → Bool
  | .keyword .printWord | .keyword .whileWord | .keyword .forWord | .keyword .switchWord
  | .keyword .ifWord | .keyword .returnWord | .symbol .leftBrace => true
  | terminal => beginsExpression terminal

namespace Derives

variable {stop : Token} {p q r : Place} {s : Stmt} {terminal wanted : Terminal} {token : Token}

theorem Passes.only (passes : Passes terminal p token q) (sees : p.Sees wanted) :
    wanted = terminal :=
  Option.some.inj (sees.symm.trans passes.sees)

theorem Passes.pos (passes : Passes terminal p token q) : 0 < p.tokens.length := by
  rw [passes.length]
  exact Nat.succ_pos _

theorem Names.length_le : ∀ {p q : Place} {params : List Param},
    Names p params q → q.tokens.length ≤ p.tokens.length
  | _, _, _, .last named node => by
      have one := named.length
      have two := congrArg List.length node.tokens
      omega
  | _, _, _, .more named node separator rest => by
      have one := named.length
      have two := congrArg List.length node.tokens
      have three := separator.length
      have four := rest.length_le
      omega

theorem Parameters.length_le {params : List Param} (derived : Parameters p params q) :
    q.tokens.length ≤ p.tokens.length := by
  cases derived with
  | absent => exact Nat.le_refl _
  | present names => exact names.length_le

theorem VarDeclaration.opens (derived : VarDeclaration stop p s q) :
    ∃ keyword r, Passes (.keyword .varWord) p keyword r := by
  cases derived with
  | mk opens => exact ⟨_, _, opens⟩

theorem VarDeclaration.length_lt (ends : stop.isEnd = true) (derived : VarDeclaration stop p s q) :
    q.tokens.length < p.tokens.length := by
  cases derived with
  | mk opens named node value closes =>
      have one := opens.length
      have two := named.length
      have three := congrArg List.length node.tokens
      have four := closes.length
      cases value with
      | absent => omega
      | present equal read =>
          have five := equal.length
          have six := read.fewer ends
          omega

theorem LoopStart.length_lt (ends : stop.isEnd = true) {first : Option Stmt}
    (derived : LoopStart stop p first q) : q.tokens.length < p.tokens.length := by
  cases derived with
  | absent passes =>
      have one := passes.length
      omega
  | var declared => exact declared.length_lt ends
  | value stated =>
      cases stated with
      | mk read passes =>
          have one := read.fewer ends
          have two := passes.length
          omega

theorem Block.opens {body : List Stmt} (derived : Block stop p body q) :
    ∃ brace r, Passes (.symbol .leftBrace) p brace r := by
  cases derived with
  | mk opens => exact ⟨_, _, opens⟩

theorem Optionally.length_le (ends : stop.isEnd = true) {value : Option Expr}
    (derived : Optionally (Expression stop) p value q) : q.tokens.length ≤ p.tokens.length := by
  cases derived with
  | absent => exact Nat.le_refl _
  | present read => exact Nat.le_of_lt (read.fewer ends)

namespace Statement

theorem begins (derived : Statement stop p s q) (sees : p.Sees terminal) :
    opensStatement terminal = true := by
  cases derived with
  | expression stated =>
      cases stated with
      | mk read =>
          have begins := read.begins sees
          unfold opensStatement
          split <;> first | rfl | exact begins
  | print opens => rw [opens.only sees]; rfl
  | whileLoop opens => rw [opens.only sees]; rfl
  | forLoop opens => rw [opens.only sees]; rfl
  | switch opens => rw [opens.only sees]; rfl
  | ifThen opens => rw [opens.only sees]; rfl
  | ifElse opens => rw [opens.only sees]; rfl
  | block inner =>
      cases inner with
      | mk opens => rw [opens.only sees]; rfl
  | ret opens => rw [opens.only sees]; rfl

theorem not_sees (derived : Statement stop p s q) (other : opensStatement terminal = false) :
    ¬p.Sees terminal := by
  intro sees
  rw [derived.begins sees] at other
  cases other

theorem pos (ends : stop.isEnd = true) (derived : Statement stop p s q) :
    0 < p.tokens.length := by
  cases derived with
  | expression stated =>
      cases stated with
      | mk read => exact Nat.zero_lt_of_lt (read.fewer ends)
  | print opens => exact opens.pos
  | whileLoop opens => exact opens.pos
  | forLoop opens => exact opens.pos
  | switch opens => exact opens.pos
  | ifThen opens => exact opens.pos
  | ifElse opens => exact opens.pos
  | block inner =>
      cases inner with
      | mk opens => exact opens.pos
  | ret opens => exact opens.pos

end Statement

namespace Declaration

/-- No declaration begins where a block ends. -/
theorem not_closed (derived : Declaration stop p s q) : ¬p.Sees (.symbol .rightBrace) := by
  intro sees
  cases derived with
  | classDecl opens => cases opens.only sees
  | function opens => cases opens.only sees
  | var declared =>
      cases declared with
      | mk opens => cases opens.only sees
  | statement stated => exact stated.not_sees rfl sees

theorem pos (ends : stop.isEnd = true) (derived : Declaration stop p s q) :
    0 < p.tokens.length := by
  cases derived with
  | classDecl opens => exact opens.pos
  | function opens => exact opens.pos
  | var declared =>
      cases declared with
      | mk opens => exact opens.pos
  | statement stated => exact stated.pos ends

end Declaration
end Derives

namespace Accepts

variable {α : Type} {stop : Token} {p q : Place} {a : α}

/-- What is repeated until a closing token, or the end of the input, is met. -/
theorem closed_iff {terminal : Terminal} {closed more : Rule α} :
    Accepts stop (do
        if (← Rule.check terminal) || (← Rule.atEnd) then closed else more) p a q ↔
      ((p.Sees terminal ∨ p.tokens = []) ∧ Accepts stop closed p a q) ∨
        ((¬p.Sees terminal ∧ p.tokens ≠ []) ∧ Accepts stop more p a q) := by
  unfold Accepts
  rw [check_bind, Outcome.bind_of_ok
    (rfl : Rule.atEnd (p.cursor stop) = .ok (p.cursor stop).pending.isEmpty (p.cursor stop))]
  by_cases isClosed : p.Sees terminal ∨ p.tokens = []
  · have decided : (decide (p.Sees terminal) || (p.cursor stop).pending.isEmpty) = true := by
      simpa [Place.cursor] using isClosed
    rw [if_pos decided]
    constructor
    · exact fun done => .inl ⟨isClosed, done⟩
    · rintro (⟨-, done⟩ | ⟨isOpen, -⟩)
      · exact done
      · exact absurd isClosed (not_or.mpr isOpen)
  · have decided : ¬(decide (p.Sees terminal) || (p.cursor stop).pending.isEmpty) = true := by
      simpa [Place.cursor] using isClosed
    rw [if_neg decided]
    constructor
    · exact fun done => .inr ⟨not_or.mp isClosed, done⟩
    · rintro (⟨impossible, -⟩ | ⟨-, done⟩)
      · exact absurd impossible isClosed
      · exact done

/-- Any number of steps, each from a state at one place to a state at a later place. -/
inductive Steps {σ : Type} (step : σ → Place → σ → Place → Prop) : σ → Place → σ → Place → Prop
  | refl (state : σ) (p : Place) : Steps step state p state p
  | head {state next last : σ} {p q r : Place} (first : step state p next q)
      (more : Steps step next q last r) : Steps step state p last r

/-- A rule that is repeated until its end is met accepts any number of its steps. -/
theorem steps_iff {σ : Type} {round : σ → Rule (Rule.Round σ α)}
    [each : ∀ state, Grows (round state)] {step : σ → Place → σ → Place → Prop}
    {closed fits : Place → Prop} {result : σ → α}
    (rounds : ∀ state p outcome q, fits p →
      (Accepts stop (round state) p outcome q ↔
        (closed p ∧ outcome = .finish (result state) ∧ q = p) ∨
          ∃ next, outcome = .again next ∧ step state p next q))
    (shorter : ∀ state p next q, fits p → step state p next q →
      q.tokens.length < p.tokens.length ∧ fits q) :
    ∀ {bound : Nat} {state : σ} {p : Place}, fits p → p.tokens.length < bound →
      (Accepts stop (Rule.iterate round bound state) p a q ↔
        ∃ last, Steps step state p last q ∧ closed q ∧ a = result last)
  | 0, _, _, _, enough => absurd enough (Nat.not_lt_zero _)
  | bound + 1, state, p, fit, enough => by
      rw [iterate_iff]
      constructor
      · rintro (⟨next, r, round, rest⟩ | round)
        · rcases (rounds _ _ _ _ fit).mp round with ⟨-, impossible, -⟩ | ⟨found, same, one⟩
          · cases impossible
          · cases same
            have further := shorter _ _ _ _ fit one
            obtain ⟨last, more, ended⟩ :=
              (steps_iff rounds shorter further.2 (by omega)).mp rest
            exact ⟨last, .head one more, ended⟩
        · rcases (rounds _ _ _ _ fit).mp round with ⟨ended, same, rfl⟩ | ⟨found, impossible, -⟩
          · cases same
            exact ⟨state, .refl _ _, ended, rfl⟩
          · cases impossible
      · rintro ⟨last, steps, ended, same⟩
        cases steps with
        | refl => exact .inr ((rounds _ _ _ _ fit).mpr (.inl ⟨ended, congrArg _ same, rfl⟩))
        | head one more =>
            have further := shorter _ _ _ _ fit one
            exact .inl ⟨_, _, (rounds _ _ _ _ fit).mpr (.inr ⟨_, rfl, one⟩),
              (steps_iff rounds shorter further.2 (by omega)).mpr ⟨last, more, ended, same⟩⟩

end Accepts

namespace Rules.Speaks

open Derives Accepts

variable {rules : Rules} {stop : Token} {deep : Nat} (speaks : rules.Speaks stop deep)
  {p q r : Place} {s : Stmt} {keyword : Token}
include speaks

theorem declaration_shorter (fits : 3 * p.tokens.length + 3 ≤ deep)
    (derived : Declaration stop p s q) : q.tokens.length < p.tokens.length := by
  obtain ⟨-, -, -, fewer, -⟩ := Reading.self.reaches_of_ok
    (speaks.abreast.declaration p.tokens.length fits) speaks.ends rfl
    ((speaks.declaration fits).mpr ⟨s, rfl, derived⟩)
  exact fewer (derived.pos speaks.ends)

/-- One more declaration, which is put before those found so far. -/
def DeclarationStep (stop : Token) (found : List Stmt) (p : Place) (next : List Stmt) (q : Place) :
    Prop :=
  ∃ s, next = s :: found ∧ Declaration stop p s q

omit speaks in
theorem declarations_of_steps {found last : List Stmt} {p q : Place}
    (steps : Steps (DeclarationStep stop) found p last q) :
    ∃ ss, Declarations stop p ss q ∧ last.reverse = found.reverse ++ ss := by
  induction steps with
  | refl found p => exact ⟨[], .nil p, (List.append_nil _).symm⟩
  | head first _ ih =>
      obtain ⟨s, rfl, declared⟩ := first
      obtain ⟨ss, further, same⟩ := ih
      refine ⟨s :: ss, .cons declared further, ?_⟩
      rw [same, List.reverse_cons, List.append_assoc]
      rfl

omit speaks in
theorem steps_of_declarations : ∀ {p q : Place} {ss : List Stmt}, Declarations stop p ss q →
    ∀ found : List Stmt, Steps (DeclarationStep stop) found p (ss.reverse ++ found) q
  | _, _, _, .nil p, found => .refl found p
  | _, _, _, @Declarations.cons _ _ _ _ s rest first further, found => by
      rw [List.reverse_cons, List.append_assoc]
      exact .head ⟨s, rfl, first⟩ (steps_of_declarations further (s :: found))

theorem blockRound_iff (fits : 3 * p.tokens.length + 3 ≤ deep) (found : List Stmt)
    (outcome : Rule.Round (List Stmt) (List Stmt)) (q : Place) :
    Accepts stop (rules.blockRound found) p outcome q ↔
      ((p.Sees (.symbol .rightBrace) ∨ p.tokens = []) ∧ outcome = .finish found.reverse ∧ q = p) ∨
        ∃ next, outcome = .again next ∧ DeclarationStep stop found p next q := by
  have := speaks.growing
  rw [blockRound_eq, closed_iff]
  constructor
  · rintro (⟨closed, done⟩ | ⟨-, done⟩)
    · exact .inl ⟨closed, pure_iff.mp done⟩
    · obtain ⟨some, r, declared, done⟩ := bind_iff.mp done
      obtain ⟨s, rfl, derived⟩ := (speaks.declaration fits).mp declared
      obtain ⟨rfl, rfl⟩ := pure_iff.mp done
      exact .inr ⟨_, rfl, s, rfl, derived⟩
  · rintro (⟨closed, rfl, rfl⟩ | ⟨next, rfl, s, rfl, derived⟩)
    · exact .inl ⟨closed, pure_iff.mpr ⟨rfl, rfl⟩⟩
    · have some := List.length_pos_iff.mp (derived.pos speaks.ends)
      exact .inr ⟨⟨derived.not_closed, some⟩, bind_iff.mpr ⟨_, _,
        (speaks.declaration fits).mpr ⟨s, rfl, derived⟩, pure_iff.mpr ⟨rfl, rfl⟩⟩⟩

/-- The declarations of a block, up to the brace that closes it. -/
theorem block_iff {brace : Token} (opens : Passes (.symbol .leftBrace) p brace q)
    (fits : 3 * q.tokens.length + 3 ≤ deep) {body : List Stmt} :
    Accepts stop rules.block q body r ↔ Block stop p body r := by
  have := speaks.growing
  have bound := speaks.abreast.bound
  have rounds (found : List Stmt) (p : Place) (outcome : Rule.Round (List Stmt) (List Stmt))
      (q : Place) (fits : 3 * p.tokens.length + 3 ≤ deep) :=
    speaks.blockRound_iff fits found outcome q
  have shorter (found : List Stmt) (p : Place) (next : List Stmt) (q : Place)
      (fits : 3 * p.tokens.length + 3 ≤ deep) (step : DeclarationStep stop found p next q) :
      q.tokens.length < p.tokens.length ∧ 3 * q.tokens.length + 3 ≤ deep := by
    obtain ⟨s, -, derived⟩ := step
    have fewer := speaks.declaration_shorter fits derived
    exact ⟨fewer, by omega⟩
  unfold Rules.block
  constructor
  · intro done
    obtain ⟨ss, r, repeated, done⟩ := bind_iff.mp done
    obtain ⟨brace', t, closes, done⟩ := bind_iff.mp done
    obtain ⟨rfl, rfl⟩ := pure_iff.mp done
    obtain ⟨last, steps, -, rfl⟩ := (steps_iff rounds shorter fits (by omega)).mp repeated
    obtain ⟨ss, derived, same⟩ := declarations_of_steps steps
    rw [same]
    exact .mk opens derived (expect_iff.mp closes)
  · intro derived
    cases derived with
    | mk again inner closes =>
        obtain ⟨-, rfl⟩ := passes_unique opens again
        have steps := steps_of_declarations inner []
        refine bind_iff.mpr ⟨_, _, (steps_iff rounds shorter fits (by omega)).mpr
          ⟨_, steps, .inl closes.sees, rfl⟩, bind_iff.mpr ⟨_, _, expect_iff.mpr closes,
            pure_iff.mpr ⟨?_, rfl⟩⟩⟩
        rw [List.append_nil, List.reverse_reverse]

theorem functionBody_iff (fits : 3 * p.tokens.length ≤ deep) (name : Option Token)
    (kind : FunctionKind) {decl : FunctionDecl} :
    Accepts stop (rules.functionBody name kind) p decl q ↔ Function stop name kind p decl q := by
  have := speaks.growing
  have : Grows rules.parameters := by
    unfold Rules.parameters
    infer_instance
  unfold Rules.functionBody
  constructor
  · intro done
    obtain ⟨left, p1, opens, done⟩ := bind_iff.mp done
    obtain ⟨params, p2, names, done⟩ := bind_iff.mp done
    obtain ⟨right, p3, closes, done⟩ := bind_iff.mp done
    obtain ⟨brace, p4, begins, done⟩ := bind_iff.mp done
    obtain ⟨body, p5, inner, done⟩ := bind_iff.mp done
    obtain ⟨rfl, rfl⟩ := pure_iff.mp done
    have opens := expect_iff.mp opens
    have closes := expect_iff.mp closes
    have begins := expect_iff.mp begins
    have parameters := (speaks.parameters_iff (by have := opens.length; omega) closes.sees).mp names
    have one := opens.length
    have two := parameters.length_le
    have three := closes.length
    have four := begins.length
    exact .mk opens parameters closes ((speaks.block_iff begins (by omega)).mp inner)
  · intro derived
    cases derived with
    | mk opens parameters closes inner =>
        have one := opens.length
        have two := parameters.length_le
        have three := closes.length
        obtain ⟨brace, r, begins⟩ := inner.opens
        have four := begins.length
        exact bind_iff.mpr ⟨_, _, expect_iff.mpr opens, bind_iff.mpr ⟨_, _,
          (speaks.parameters_iff (by omega) closes.sees).mpr parameters, bind_iff.mpr ⟨_, _,
            expect_iff.mpr closes, bind_iff.mpr ⟨_, _, expect_iff.mpr begins, bind_iff.mpr ⟨_, _,
              (speaks.block_iff begins (by omega)).mpr inner, pure_iff.mpr ⟨rfl, rfl⟩⟩⟩⟩⟩⟩

/-- An expression that may be missing before a terminal that cannot begin one. -/
theorem optional_iff (fits : 3 * p.tokens.length + 1 ≤ deep) {terminal : Terminal}
    (other : beginsExpression terminal = false) {α β : Type} (read : Rule β) (missing : β)
    (given : Expr → β) (f : β → Rule α) [Grows read] [∀ b, Grows (f b)] {a : α}
    (reads : ∀ b q, Accepts stop read p b q ↔
      ∃ e, Accepts stop (rules.expression .lowest) p e q ∧ b = given e)
    (ended : ∀ b t, Accepts stop (f b) t a r → t.Sees terminal) :
    Accepts stop (do if ← Rule.check terminal then f missing else read >>= f) p a r ↔
      ∃ value q, Optionally (Derives.Expression stop) p value q ∧
        Accepts stop (f (value.elim missing given)) q a r := by
  rw [check_iff]
  simp only [if_true, Bool.false_eq_true, if_false]
  constructor
  · rintro (⟨-, done⟩ | ⟨-, done⟩)
    · exact ⟨none, p, .absent p, done⟩
    · obtain ⟨b, q, found, done⟩ := bind_iff.mp done
      obtain ⟨e, inner, rfl⟩ := (reads _ _).mp found
      exact ⟨some e, q, .present ((speaks.expression fits).mp inner), done⟩
  · rintro ⟨value, q, derived, done⟩
    cases derived with
    | absent => exact .inl ⟨ended _ _ done, done⟩
    | present found =>
        exact .inr ⟨found.not_sees other, bind_iff.mpr ⟨_, _,
          (reads _ _).mpr ⟨_, (speaks.expression fits).mpr found, rfl⟩, done⟩⟩

end Rules.Speaks
end Lox.Grammar
