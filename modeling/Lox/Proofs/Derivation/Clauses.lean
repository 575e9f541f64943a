import Lox.Proofs.Derivation.Statement

set_option autoImplicit false

/-! Statements with a keyword, accepted exactly as they are derived from what follows it. -/

namespace Lox.Grammar.Rules

/-- What follows the step of a loop. -/
def forEnd (rules : Rules) (first : Option Stmt) (condition : Expr) (last : Option Expr) :
    Rule Stmt := do
  let _ ← Rule.expect (.symbol .rightParen) .forClose
  return forLoop first condition last (← rules.statement)

/-- What follows the condition of a loop. -/
def forMiddle (rules : Rules) (first : Option Stmt) (condition : Expr) : Rule Stmt := do
  let _ ← Rule.expect (.symbol .semicolon) .loopConditionEnd
  if ← Rule.check (.symbol .rightParen) then rules.forEnd first condition none
  else (some <$> rules.expression .lowest) >>= rules.forEnd first condition

theorem forStatement_eq (rules : Rules) : rules.forStatement = (do
    let _ ← Rule.expect (.symbol .leftParen) .forOpen
    let first ← rules.forInitializer
    if ← Rule.check (.symbol .semicolon) then rules.forMiddle first (.literal (.bool true))
    else rules.expression .lowest >>= rules.forMiddle first) :=
  rfl

instance forEnd_grows (rules : Rules) [rules.Growing] (first : Option Stmt) (condition : Expr)
    (last : Option Expr) : Grows (rules.forEnd first condition last) := by
  unfold forEnd
  infer_instance

instance forMiddle_grows (rules : Rules) [rules.Growing] (first : Option Stmt) (condition : Expr) :
    Grows (rules.forMiddle first condition) := by
  unfold forMiddle
  infer_instance

namespace Speaks

open Derives Accepts

variable {rules : Rules} {stop : Token} {deep : Nat} (speaks : rules.Speaks stop deep)
  {p q r : Place} {s : Stmt}
include speaks

theorem printStatement_iff (fits : 3 * p.tokens.length + 1 ≤ deep) :
    Accepts stop rules.printStatement p s r ↔
      ∃ value q semicolon, s = .print value ∧ Derives.Expression stop p value q ∧
        Passes (.symbol .semicolon) q semicolon r := by
  have := speaks.growing
  unfold Rules.printStatement
  constructor
  · intro done
    obtain ⟨value, q, read, done⟩ := bind_iff.mp done
    obtain ⟨semicolon, t, ends, done⟩ := bind_iff.mp done
    obtain ⟨rfl, rfl⟩ := pure_iff.mp done
    exact ⟨value, q, semicolon, rfl, (speaks.expression fits).mp read, expect_iff.mp ends⟩
  · rintro ⟨value, q, semicolon, rfl, read, ends⟩
    exact bind_iff.mpr ⟨_, _, (speaks.expression fits).mpr read, bind_iff.mpr ⟨_, _,
      expect_iff.mpr ends, pure_iff.mpr ⟨rfl, rfl⟩⟩⟩

theorem returnStatement_iff (fits : 3 * p.tokens.length + 1 ≤ deep) (keyword : Token) :
    Accepts stop (rules.returnStatement keyword) p s r ↔
      ∃ value q semicolon, s = .ret keyword value ∧
        Optionally (Derives.Expression stop) p value q ∧
          Passes (.symbol .semicolon) q semicolon r := by
  have := speaks.growing
  have final {value : Option Expr} {q : Place} :
      Accepts stop (do
        let _ ← Rule.expect (.symbol .semicolon) .returnEnd
        return Stmt.ret keyword value) q s r ↔
        ∃ semicolon, s = .ret keyword value ∧ Passes (.symbol .semicolon) q semicolon r := by
    constructor
    · intro done
      obtain ⟨semicolon, t, ends, done⟩ := bind_iff.mp done
      obtain ⟨rfl, rfl⟩ := pure_iff.mp done
      exact ⟨semicolon, rfl, expect_iff.mp ends⟩
    · rintro ⟨semicolon, rfl, ends⟩
      exact bind_iff.mpr ⟨_, _, expect_iff.mpr ends, pure_iff.mpr ⟨rfl, rfl⟩⟩
  have whole : Accepts stop (rules.returnStatement keyword) p s r ↔ _ :=
    speaks.optional_iff fits (show beginsExpression (.symbol .semicolon) = false from rfl)
      (some <$> rules.expression .lowest) none some (fun value => do
        let _ ← Rule.expect (.symbol .semicolon) .returnEnd
        return Stmt.ret keyword value) (fun b q => fmap_iff) fun value t done => by
      obtain ⟨semicolon, -, ends⟩ := final.mp done
      exact ends.sees
  refine Iff.trans whole ?_
  have same (value : Option Expr) : value.elim none some = value := by cases value <;> rfl
  simp only [same]
  constructor
  · rintro ⟨value, q, read, done⟩
    obtain ⟨semicolon, same, ends⟩ := final.mp done
    exact ⟨value, q, semicolon, same, read, ends⟩
  · rintro ⟨value, q, semicolon, same, read, ends⟩
    exact ⟨value, q, read, final.mpr ⟨semicolon, same, ends⟩⟩

theorem whileStatement_iff (fits : 3 * p.tokens.length ≤ deep) :
    Accepts stop rules.whileStatement p s r ↔
      ∃ left q condition t right u body, s = .loop condition body.scoped ∧
        Passes (.symbol .leftParen) p left q ∧ Derives.Expression stop q condition t ∧
          Passes (.symbol .rightParen) t right u ∧ Derives.Statement stop u body r := by
  have := speaks.growing
  unfold Rules.whileStatement
  constructor
  · intro done
    obtain ⟨left, q, opens, done⟩ := bind_iff.mp done
    obtain ⟨condition, t, read, done⟩ := bind_iff.mp done
    obtain ⟨right, u, closes, done⟩ := bind_iff.mp done
    obtain ⟨body, v, inner, done⟩ := bind_iff.mp done
    obtain ⟨rfl, rfl⟩ := pure_iff.mp done
    have opens := expect_iff.mp opens
    have closes := expect_iff.mp closes
    have one := opens.length
    have read := (speaks.expression (by omega)).mp read
    have two := read.fewer speaks.ends
    have three := closes.length
    exact ⟨left, q, condition, t, right, u, body, rfl, opens, read, closes,
      (speaks.statement (by omega)).mp inner⟩
  · rintro ⟨left, q, condition, t, right, u, body, rfl, opens, read, closes, inner⟩
    have one := opens.length
    have two := read.fewer speaks.ends
    have three := closes.length
    exact bind_iff.mpr ⟨_, _, expect_iff.mpr opens, bind_iff.mpr ⟨_, _,
      (speaks.expression (by omega)).mpr read, bind_iff.mpr ⟨_, _, expect_iff.mpr closes,
        bind_iff.mpr ⟨_, _, (speaks.statement (by omega)).mpr inner, pure_iff.mpr ⟨rfl, rfl⟩⟩⟩⟩⟩

/-- An alternative belongs to the branch that was opened last. -/
theorem ifStatement_iff (fits : 3 * p.tokens.length ≤ deep) :
    Accepts stop rules.ifStatement p s r ↔
      ∃ left q condition t right u thenBranch v, Passes (.symbol .leftParen) p left q ∧
        Derives.Expression stop q condition t ∧ Passes (.symbol .rightParen) t right u ∧
          Derives.Statement stop u thenBranch v ∧
            ((∃ otherwise w elseBranch, Passes (.keyword .elseWord) v otherwise w ∧
                Derives.Statement stop w elseBranch r ∧
                  s = .branch condition thenBranch.scoped (some elseBranch.scoped)) ∨
              (¬v.Sees (.keyword .elseWord) ∧ r = v ∧
                s = .branch condition thenBranch.scoped none)) := by
  have := speaks.growing
  unfold Rules.ifStatement
  constructor
  · intro done
    obtain ⟨left, q, opens, done⟩ := bind_iff.mp done
    obtain ⟨condition, t, read, done⟩ := bind_iff.mp done
    obtain ⟨right, u, closes, done⟩ := bind_iff.mp done
    obtain ⟨thenBranch, v, chosen, done⟩ := bind_iff.mp done
    have opens := expect_iff.mp opens
    have closes := expect_iff.mp closes
    have one := opens.length
    have read := (speaks.expression (by omega)).mp read
    have two := read.fewer speaks.ends
    have three := closes.length
    have chosen := (speaks.statement (by omega)).mp chosen
    have four := speaks.statement_fewer (by omega) chosen
    refine ⟨left, q, condition, t, right, u, thenBranch, v, opens, read, closes, chosen, ?_⟩
    rcases accept_iff.mp done with ⟨otherwise, w, separator, done⟩ | ⟨complete, done⟩
    · obtain ⟨elseBranch, x, other, done⟩ := bind_iff.mp done
      obtain ⟨rfl, rfl⟩ := pure_iff.mp done
      have five := separator.length
      exact .inl ⟨otherwise, w, elseBranch, separator, (speaks.statement (by omega)).mp other, rfl⟩
    · obtain ⟨rfl, rfl⟩ := pure_iff.mp done
      exact .inr ⟨complete, rfl, rfl⟩
  · rintro ⟨left, q, condition, t, right, u, thenBranch, v, opens, read, closes, chosen, ends⟩
    have one := opens.length
    have two := read.fewer speaks.ends
    have three := closes.length
    have four := speaks.statement_fewer (by omega) chosen
    refine bind_iff.mpr ⟨_, _, expect_iff.mpr opens, bind_iff.mpr ⟨_, _,
      (speaks.expression (by omega)).mpr read, bind_iff.mpr ⟨_, _, expect_iff.mpr closes,
        bind_iff.mpr ⟨_, _, (speaks.statement (by omega)).mpr chosen, ?_⟩⟩⟩⟩
    rcases ends with ⟨otherwise, w, elseBranch, separator, other, rfl⟩ | ⟨complete, rfl, rfl⟩
    · have five := separator.length
      exact accept_iff.mpr (.inl ⟨_, _, separator, bind_iff.mpr ⟨_, _,
        (speaks.statement (by omega)).mpr other, pure_iff.mpr ⟨rfl, rfl⟩⟩⟩)
    · exact accept_iff.mpr (.inr ⟨complete, pure_iff.mpr ⟨rfl, rfl⟩⟩)

theorem forInitializer_iff (fits : 3 * p.tokens.length + 1 ≤ deep) {first : Option Stmt} :
    Accepts stop rules.forInitializer p first q ↔ LoopStart stop p first q := by
  have := speaks.growing
  unfold Rules.forInitializer
  constructor
  · intro done
    rcases accept_iff.mp done with ⟨semicolon, r, ends, done⟩ | ⟨-, done⟩
    · obtain ⟨rfl, rfl⟩ := pure_iff.mp done
      exact .absent ends
    · rcases accept_iff.mp done with ⟨keyword, r, opens, done⟩ | ⟨-, done⟩
      · obtain ⟨s, declared, rfl⟩ := fmap_iff.mp done
        have one := opens.length
        exact .var ((speaks.varDeclaration_iff opens (by omega)).mp declared)
      · obtain ⟨s, stated, rfl⟩ := fmap_iff.mp done
        exact .value ((speaks.expressionStatement_iff fits).mp stated)
  · intro derived
    cases derived with
    | absent ends => exact accept_iff.mpr (.inl ⟨_, _, ends, pure_iff.mpr ⟨rfl, rfl⟩⟩)
    | var declared =>
        obtain ⟨keyword, r, opens⟩ := declared.opens
        have one := opens.length
        exact accept_iff.mpr (.inr ⟨opens.sees.other (by decide), accept_iff.mpr (.inl
          ⟨_, _, opens, fmap_iff.mpr ⟨_, (speaks.varDeclaration_iff opens (by omega)).mpr declared,
            rfl⟩⟩)⟩)
    | value stated =>
        cases id stated with
        | mk read =>
            exact accept_iff.mpr (.inr ⟨read.not_sees rfl, accept_iff.mpr (.inr
              ⟨read.not_sees rfl, fmap_iff.mpr
                ⟨_, (speaks.expressionStatement_iff fits).mpr stated, rfl⟩⟩)⟩)

omit speaks in
theorem forLoop_eq (first : Option Stmt) (condition step : Option Expr) (body : Stmt) :
    forLoop first (condition.elim (.literal (.bool true)) id) (step.elim none some) body =
      loopImage first condition step body := by
  cases first <;> cases condition <;> cases step <;> rfl

theorem forEnd_iff (fits : 3 * p.tokens.length ≤ deep) (first : Option Stmt) (condition : Expr)
    (last : Option Expr) :
    Accepts stop (rules.forEnd first condition last) p s r ↔
      ∃ right q body, s = forLoop first condition last body ∧
        Passes (.symbol .rightParen) p right q ∧ Derives.Statement stop q body r := by
  have := speaks.growing
  unfold forEnd
  constructor
  · intro done
    obtain ⟨right, q, closes, done⟩ := bind_iff.mp done
    obtain ⟨body, y, inner, done⟩ := bind_iff.mp done
    obtain ⟨rfl, rfl⟩ := pure_iff.mp done
    have closes := expect_iff.mp closes
    have one := closes.length
    exact ⟨right, q, body, rfl, closes, (speaks.statement (by omega)).mp inner⟩
  · rintro ⟨right, q, body, rfl, closes, inner⟩
    have one := closes.length
    exact bind_iff.mpr ⟨_, _, expect_iff.mpr closes, bind_iff.mpr ⟨_, _,
      (speaks.statement (by omega)).mpr inner, pure_iff.mpr ⟨rfl, rfl⟩⟩⟩

theorem forMiddle_iff (fits : 3 * p.tokens.length ≤ deep) (first : Option Stmt)
    (condition : Expr) :
    Accepts stop (rules.forMiddle first condition) p s r ↔
      ∃ semicolon q step t right u body, s = forLoop first condition (step.elim none some) body ∧
        Passes (.symbol .semicolon) p semicolon q ∧
          Optionally (Derives.Expression stop) q step t ∧
            Passes (.symbol .rightParen) t right u ∧ Derives.Statement stop u body r := by
  have := speaks.growing
  have step_iff {q : Place} (fits : 3 * q.tokens.length + 1 ≤ deep) :=
    speaks.optional_iff (p := q) (a := s) (r := r) fits
      (show beginsExpression (.symbol .rightParen) = false from rfl)
      (some <$> rules.expression .lowest) none some (rules.forEnd first condition)
      (fun b q => fmap_iff) fun last t done => sees_of_expect done
  unfold forMiddle
  constructor
  · intro done
    obtain ⟨semicolon, q, ends, done⟩ := bind_iff.mp done
    have ends := expect_iff.mp ends
    have one := ends.length
    obtain ⟨step, t, read, done⟩ := (step_iff (by omega)).mp done
    have two := read.length_le speaks.ends
    obtain ⟨right, u, body, same, closes, inner⟩ := (speaks.forEnd_iff (by omega) _ _ _).mp done
    exact ⟨semicolon, q, step, t, right, u, body, same, ends, read, closes, inner⟩
  · rintro ⟨semicolon, q, step, t, right, u, body, same, ends, read, closes, inner⟩
    have one := ends.length
    have two := read.length_le speaks.ends
    exact bind_iff.mpr ⟨_, _, expect_iff.mpr ends, (step_iff (by omega)).mpr ⟨_, _, read,
      (speaks.forEnd_iff (by omega) _ _ _).mpr ⟨right, u, body, same, closes, inner⟩⟩⟩

theorem forStatement_iff (fits : 3 * p.tokens.length ≤ deep) :
    Accepts stop rules.forStatement p s r ↔
      ∃ left q first t condition u semicolon v step w right x body,
        s = loopImage first condition step body ∧ Passes (.symbol .leftParen) p left q ∧
          LoopStart stop q first t ∧ Optionally (Derives.Expression stop) t condition u ∧
            Passes (.symbol .semicolon) u semicolon v ∧
              Optionally (Derives.Expression stop) v step w ∧
                Passes (.symbol .rightParen) w right x ∧ Derives.Statement stop x body r := by
  have := speaks.growing
  have condition_iff {first : Option Stmt} {t : Place} (fits : 3 * t.tokens.length + 1 ≤ deep) :=
    speaks.optional_iff (p := t) (a := s) (r := r) fits
      (show beginsExpression (.symbol .semicolon) = false from rfl) (rules.expression .lowest)
      (.literal (.bool true)) id (rules.forMiddle first)
      (fun b q => by simp) fun last t done => sees_of_expect done
  rw [forStatement_eq]
  constructor
  · intro done
    obtain ⟨left, q, opens, done⟩ := bind_iff.mp done
    obtain ⟨first, t, start, done⟩ := bind_iff.mp done
    have opens := expect_iff.mp opens
    have one := opens.length
    have start := (speaks.forInitializer_iff (by omega)).mp start
    have two := start.length_lt speaks.ends
    obtain ⟨condition, u, test, done⟩ := (condition_iff (by omega)).mp done
    have three := test.length_le speaks.ends
    obtain ⟨semicolon, v, step, w, right, x, body, same, middle, read, closes, inner⟩ :=
      (speaks.forMiddle_iff (by omega) _ _).mp done
    rw [forLoop_eq] at same
    exact ⟨left, q, first, t, condition, u, semicolon, v, step, w, right, x, body, same, opens,
      start, test, middle, read, closes, inner⟩
  · rintro ⟨left, q, first, t, condition, u, semicolon, v, step, w, right, x, body, same, opens,
      start, test, middle, read, closes, inner⟩
    have one := opens.length
    have two := start.length_lt speaks.ends
    have three := test.length_le speaks.ends
    rw [← forLoop_eq] at same
    exact bind_iff.mpr ⟨_, _, expect_iff.mpr opens, bind_iff.mpr ⟨_, _,
      (speaks.forInitializer_iff (by omega)).mpr start, (condition_iff (by omega)).mpr
        ⟨_, _, test, (speaks.forMiddle_iff (by omega) _ _).mpr
          ⟨semicolon, v, step, w, right, x, body, same, middle, read, closes, inner⟩⟩⟩⟩

end Speaks
end Lox.Grammar.Rules
