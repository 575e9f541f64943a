import Lox.Proofs.Derivation.Switch

set_option autoImplicit false

/-! Which statement it is shows in its first token. -/

namespace Lox.Grammar.Rules

open Derives Accepts

variable {rules : Rules} {stop : Token} {p q r : Place} {s : Stmt}

theorem statementRule_of_passes {terminal : Terminal} {token : Token}
    (passes : Passes terminal p token q) :
    rules.statementRule (p.cursor stop) = match terminal with
      | .keyword .forWord => rules.forStatement (q.cursor stop)
      | .keyword .ifWord => rules.ifStatement (q.cursor stop)
      | .symbol .leftBrace => (Stmt.block <$> rules.block) (q.cursor stop)
      | .keyword .switchWord => rules.switchStatement token (q.cursor stop)
      | .keyword .printWord => rules.printStatement (q.cursor stop)
      | .keyword .returnWord => rules.returnStatement token (q.cursor stop)
      | .keyword .whileWord => rules.whileStatement (q.cursor stop)
      | _ => rules.expressionStatement (p.cursor stop) := by
  have found : (p.cursor stop).next.terminal? = some terminal := Place.next_of_sees passes.sees
  obtain ⟨-, rfl⟩ := passes
  unfold statementRule
  rw [peek_bind, found]
  cases terminal with
  | symbol symbol => cases symbol <;> rfl
  | keyword keyword => cases keyword <;> rfl
  | name => rfl

theorem statementRule_of_none (ends : stop.isEnd = true)
    (none : ∀ terminal, ¬p.Sees terminal) :
    rules.statementRule (p.cursor stop) = rules.expressionStatement (p.cursor stop) := by
  have found : (p.cursor stop).next.terminal? = Option.none := by
    obtain ⟨tokens, nextId⟩ := p
    cases tokens with
    | nil =>
        change stop.terminal? = Option.none
        rw [Option.eq_none_iff_forall_ne_some]
        intro terminal found
        rw [Token.isEnd_of_terminal found] at ends
        cases ends
    | cons t rest =>
        rw [Option.eq_none_iff_forall_ne_some]
        exact fun terminal found => none terminal found
  unfold statementRule
  rw [peek_bind, found]

namespace Speaks

variable {deep : Nat} (speaks : rules.Speaks stop deep)
include speaks

omit speaks in
theorem expression_of_statementRule {terminal : Terminal} {token : Token}
    (passes : Passes terminal p token q) (begins : beginsExpression terminal = true) :
    rules.statementRule (p.cursor stop) = rules.expressionStatement (p.cursor stop) := by
  rw [statementRule_of_passes passes]
  split <;> first | rfl | cases begins

theorem statement_of_accepts (fits : 3 * p.tokens.length + 1 ≤ deep)
    (done : Accepts stop rules.statementRule p s r) : Statement stop p s r := by
  have := speaks.growing
  by_cases sees : ∃ terminal, p.Sees terminal
  · obtain ⟨terminal, sees⟩ := sees
    obtain ⟨token, q, opens⟩ := sees_iff.mp sees
    have one := opens.length
    unfold Accepts at done
    rw [statementRule_of_passes opens] at done
    split at done
    · rename_i opens
      obtain ⟨left, q, first, t, condition, u, semicolon, v, step, w, right, x, body, rfl, leftParen,
        start, test, middle, advance, rightParen, repeated⟩ :=
        (speaks.forStatement_iff (by omega)).mp done
      exact .forLoop opens leftParen start test middle advance rightParen repeated
    · rename_i opens
      obtain ⟨left, q, condition, t, right, u, thenBranch, v, leftParen, test, rightParen, chosen,
        ended⟩ := (speaks.ifStatement_iff (by omega)).mp done
      rcases ended with ⟨otherwise, w, elseBranch, separator, other, rfl⟩ | ⟨complete, rfl, rfl⟩
      · exact .ifElse opens leftParen test rightParen chosen separator other
      · exact .ifThen opens leftParen test rightParen chosen complete
    · rename_i opens
      obtain ⟨body, inner, rfl⟩ := fmap_iff.mp done
      exact .block ((speaks.block_iff opens (by omega)).mp inner)
    · rename_i opens
      obtain ⟨left, q, subject, t, right, u, id, v, leftBrace, w, arms, default, x, rightBrace, y, rfl,
        rfl, leftParen, value, rightParen, node, begins, choices, ends⟩ :=
        (speaks.switchStatement_iff (by omega)).mp done
      exact .switch opens leftParen value rightParen node begins choices ends
    · rename_i opens
      obtain ⟨value, q, semicolon, rfl, read, ends⟩ :=
        (speaks.printStatement_iff (by omega)).mp done
      exact .print opens read ends
    · rename_i opens
      obtain ⟨value, q, semicolon, rfl, read, ends⟩ :=
        (speaks.returnStatement_iff (by omega) token).mp done
      exact .ret opens read ends
    · rename_i opens
      obtain ⟨left, q, condition, t, right, u, body, rfl, leftParen, test, rightParen, repeated⟩ :=
        (speaks.whileStatement_iff (by omega)).mp done
      exact .whileLoop opens leftParen test rightParen repeated
    · exact .expression ((speaks.expressionStatement_iff fits).mp done)
  · unfold Accepts at done
    rw [statementRule_of_none speaks.ends (not_exists.mp sees)] at done
    exact .expression ((speaks.expressionStatement_iff fits).mp done)

theorem accepts_of_statement (fits : 3 * p.tokens.length + 1 ≤ deep)
    (derived : Statement stop p s r) : Accepts stop rules.statementRule p s r := by
  have := speaks.growing
  unfold Accepts
  cases derived with
  | expression stated =>
      have same : rules.statementRule (p.cursor stop) = rules.expressionStatement (p.cursor stop) := by
        by_cases sees : ∃ terminal, p.Sees terminal
        · obtain ⟨terminal, sees⟩ := sees
          obtain ⟨token, q, opens⟩ := sees_iff.mp sees
          cases stated with
          | mk read => exact expression_of_statementRule opens (read.begins sees)
        · exact statementRule_of_none speaks.ends (not_exists.mp sees)
      rw [same]
      exact (speaks.expressionStatement_iff fits).mpr stated
  | print opens read ends =>
      have one := opens.length
      rw [statementRule_of_passes opens]
      exact (speaks.printStatement_iff (by omega)).mpr ⟨_, _, _, rfl, read, ends⟩
  | whileLoop opens leftParen test rightParen repeated =>
      have one := opens.length
      rw [statementRule_of_passes opens]
      exact (speaks.whileStatement_iff (by omega)).mpr
        ⟨_, _, _, _, _, _, _, rfl, leftParen, test, rightParen, repeated⟩
  | forLoop opens leftParen start test middle advance rightParen repeated =>
      have one := opens.length
      rw [statementRule_of_passes opens]
      exact (speaks.forStatement_iff (by omega)).mpr ⟨_, _, _, _, _, _, _, _, _, _, _, _, _, rfl,
        leftParen, start, test, middle, advance, rightParen, repeated⟩
  | switch opens leftParen value rightParen node begins choices ends =>
      have one := opens.length
      rw [statementRule_of_passes opens]
      exact (speaks.switchStatement_iff (by omega)).mpr ⟨_, _, _, _, _, _, _, _, _, _, _, _, _, _, _,
        rfl, rfl, leftParen, value, rightParen, node, begins, choices, ends⟩
  | ifThen opens leftParen test rightParen chosen complete =>
      have one := opens.length
      rw [statementRule_of_passes opens]
      exact (speaks.ifStatement_iff (by omega)).mpr ⟨_, _, _, _, _, _, _, _, leftParen, test,
        rightParen, chosen, .inr ⟨complete, rfl, rfl⟩⟩
  | ifElse opens leftParen test rightParen chosen separator other =>
      have one := opens.length
      rw [statementRule_of_passes opens]
      exact (speaks.ifStatement_iff (by omega)).mpr ⟨_, _, _, _, _, _, _, _, leftParen, test,
        rightParen, chosen, .inl ⟨_, _, _, separator, other, rfl⟩⟩
  | block inner =>
      obtain ⟨brace, q, opens⟩ := inner.opens
      have one := opens.length
      rw [statementRule_of_passes opens]
      exact fmap_iff.mpr ⟨_, (speaks.block_iff opens (by omega)).mpr inner, rfl⟩
  | ret opens read ends =>
      have one := opens.length
      rw [statementRule_of_passes opens]
      exact (speaks.returnStatement_iff (by omega) _).mpr ⟨_, _, _, rfl, read, ends⟩

theorem statementRule_iff (fits : 3 * p.tokens.length + 1 ≤ deep) :
    Accepts stop rules.statementRule p s r ↔ Statement stop p s r :=
  ⟨speaks.statement_of_accepts fits, speaks.accepts_of_statement fits⟩

end Speaks
end Lox.Grammar.Rules
