import Lox.Proofs.Layered.Operand

set_option autoImplicit false

/-! Reading by levels agrees with reading by layers: the same expression with the same nodes from the same
tokens, and the same error where there is none. Each layer is the next tighter one, followed by the
operators of its own level. -/

namespace Lox.Grammar

namespace Level

theorem all_rank (level : Level) : all[level.rank]? = some level := by
  cases level <;> rfl

theorem eq_of_rank {one two : Level} (same : one.rank = two.rank) : one = two :=
  Option.some.inj ((all_rank one).symm.trans (same ▸ all_rank two))

theorem rank_lower {level : Level} (above : level ≠ .lowest) : level.lower.rank + 1 = level.rank := by
  cases level <;> first | rfl | exact absurd rfl above

theorem ofKind_ne_unary (kind : Token.Kind) : ofKind? kind ≠ some .unary := by
  cases kind with
  | symbol s => cases s <;> decide
  | keyword k => cases k <;> decide
  | _ => nofun

theorem ofKind_iff {token : Token} {terminal : Terminal} {level : Level}
    (only : ∀ other, ofTerminal? other = some level ↔ other = terminal) :
    ofKind? token.kind = some level ↔ token.terminal? = some terminal := by
  rw [ofKind_eq, Option.bind_eq_some_iff]
  constructor
  · rintro ⟨other, found, has⟩
    rw [found, (only other).mp has]
  · intro found
    exact ⟨terminal, found, (only terminal).mpr rfl⟩

end Level

theorem Token.kind_of_symbol {token : Token} {s : Symbol}
    (found : token.terminal? = some (.symbol s)) : token.kind = .symbol s := by
  unfold Token.terminal? at found
  split at found <;> simp_all

/-- An operator of the level at which a cursor is settled, or none that binds as tight. -/
theorem Cursor.Settled.next {c : Cursor} {level : Level} (settled : c.Settled level)
    (above : level ≠ .lowest) :
    c.Settled level.lower ∨ Level.ofKind? c.next.kind = some level := by
  by_cases further : c.Settled level.lower
  · exact .inl further
  · obtain ⟨found, tight, higher⟩ := Rules.tighter_of_not_settled further
    have under := settled found tight
    have step := Level.rank_lower above
    rw [Level.eq_of_rank (show found.rank = level.rank by omega)] at tight
    exact .inr tight

namespace Rules.Agree

variable {rules : Rules} {layers : Layers} {n : Nat} (agree : rules.Agree layers n) {c : Cursor}
include agree

theorem expressionAt_under (under : c.Under (n + 1)) {min : Level} {e : Expr} {after : Cursor}
    (done : rules.expressionAt min c = .ok e after) : after.Under n := by
  have few := under.few
  obtain ⟨ends, -, -, fewer, -⟩ := Reading.self.reaches_of_ok
    (expressionAt_abreast agree.steady.abreast min (n := c.pending.length) (by omega)) under.ends
    rfl done
  exact ⟨ends, by omega⟩

theorem expression_under (under : c.Under n) {min : Level} {e : Expr} {after : Cursor}
    (done : rules.expression min c = .ok e after) : after.Under n := by
  have few := under.few
  obtain ⟨ends, -, -, fewer, -⟩ := Reading.self.reaches_of_ok
    (agree.steady.abreast.expression c.pending.length min (by omega)) under.ends rfl done
  exact ⟨ends, by omega⟩

theorem expressionAt_split (under : c.Under (n + 1)) (low high : Level)
    (looser : low.rank ≤ high.rank) :
    rules.expressionAt low c =
      (do
        let left ← rules.expressionAt high
        Rule.iterate (rules.operatorRound low) rules.bound left) c := by
  unfold expressionAt
  rw [bind_assoc]
  refine Outcome.bind_congr_both rfl fun left after done => ?_
  have further := agree.operand_under under done
  have enough := Nat.lt_of_lt_of_le further.few agree.enough
  exact agree.steady.iterate_split looser further enough enough

/-- A level whose operators group to the left. -/
theorem leftLayer_eq (level : Level) {operators : LeftOperators} {tighter : Rule Expr}
    (above : level ≠ .lowest)
    (same : ∀ terminal, operators.terminals.contains terminal =
      (Level.ofTerminal? terminal == some level))
    (extending : ∀ (left : Expr) (token : Token), Level.ofKind? token.kind = some level →
      rules.extend left token level =
        (do return operators.node left token (← rules.expression level)))
    (operand : ∀ c : Cursor, c.Under (n + 1) → rules.expressionAt level c = tighter c)
    (right : ∀ c : Cursor, c.Under n → rules.expression level c = tighter c)
    (under : c.Under (n + 1)) :
    rules.expressionAt level.lower c = layers.leftLayer operators tighter c := by
  have step := Level.rank_lower above
  rw [agree.expressionAt_split under level.lower level (by omega)]
  unfold Layers.leftLayer
  rw [agree.bounds]
  refine Outcome.bind_congr_both (operand c under) fun left after done => ?_
  rw [← operand c under] at done
  refine Rule.iterate_congr (fun c => c.Under n ∧ c.Settled level) ?_ _ _ _
    ⟨agree.expressionAt_under under done, expressionAt_settled rules done⟩
  rintro left c ⟨under, settled⟩
  have includes : c.next.terminal?.any operators.terminals.contains =
      (Level.ofKind? c.next.kind == some level) := by
    rw [Level.ofKind_eq]
    cases c.next.terminal? with
    | none => rfl
    | some terminal => exact same terminal
  unfold Layers.leftRound
  rw [peek_bind, includes]
  rcases settled.next above with ends | more
  · have other : Level.ofKind? c.next.kind ≠ some level := fun found =>
      absurd (ends level found) (by omega)
    rw [operatorRound_of_settled rules ends, if_neg (by simpa using other)]
    exact ⟨rfl, nofun⟩
  · have inner := advance_under under more
    rw [operatorRound_of_tighter rules more (by omega), if_pos (by simpa using more),
      extending left c.next more]
    simp only [bind_assoc, pure_bind]
    rw [advance_bind, advance_bind]
    refine ⟨Outcome.bind_congr (right _ inner), fun next after again => ?_⟩
    obtain ⟨value, last, read, rest⟩ := Outcome.ok_of_bind again
    cases rest
    exact ⟨agree.expression_under inner read, agree.steady.settles _ _ _ _ read⟩

/-- A level with one operator that takes the level itself on its right: once its right operand is read,
no more of it can follow. -/
theorem expressionAt_lower {level : Level} (above : level ≠ .lowest)
    (settles : ∀ (left : Expr) (token : Token) (c : Cursor) (e : Expr) (after : Cursor),
      Level.ofKind? token.kind = some level → rules.extend left token level c = .ok e after →
        after.Settled level.lower) (under : c.Under (n + 1)) :
    rules.expressionAt level.lower c =
      (do
        let left ← rules.expressionAt level
        let operator ← Rule.peek
        if Level.ofKind? operator.kind = some level then
          Rule.advance
          rules.extend left operator level
        else
          return left) c := by
  have step := Level.rank_lower above
  rw [agree.expressionAt_split under level.lower level (by omega)]
  refine Outcome.bind_congr_both rfl fun left after done => ?_
  have further := agree.expressionAt_under under done
  rw [peek_bind]
  rcases (expressionAt_settled rules done).next above with ends | more
  · have other : Level.ofKind? after.next.kind ≠ some level := fun found =>
      absurd (ends level found) (by omega)
    rw [agree.iterate_of_settled left further ends, if_neg other]
    rfl
  · have inner := advance_under further more
    have few := further.few
    have enough := agree.enough
    obtain ⟨bound, bounds⟩ : ∃ bound, rules.bound = bound + 1 + 1 := by
      obtain ⟨terminal, found, -⟩ := Level.terminal_of_ofKind more
      have some := Cursor.pending_pos further.ends (Token.isEnd_of_terminal found)
      exact ⟨rules.bound - 2, by omega⟩
    have round : rules.operatorRound level.lower left after = _ :=
      operatorRound_of_tighter rules more (show level.lower.rank < level.rank by omega)
    rw [if_pos more, advance_bind]
    rw [advance_bind] at round
    rw [bounds]
    cases read : rules.extend left after.next level
        { after with pending := after.pending.tail } with
    | error failure last =>
        rw [Outcome.bind_of_error read] at round
        exact Rule.iterate_of_error round
    | ok e last =>
        rw [Outcome.bind_of_ok read] at round
        rw [Rule.iterate_of_again round]
        exact Rule.iterate_of_finish
          (operatorRound_of_settled rules (settles _ _ _ _ _ more read))

theorem exponent_of_unary (under : c.Under (n + 1)) :
    rules.expressionAt .exponent c = layers.unary c := by
  rw [agree.expressionAt_split under .exponent .unary (by decide), ← agree.unary_eq under]
  cases done : rules.expressionAt .unary c with
  | error failure after => rw [Outcome.bind_of_error done]
  | ok left after =>
      rw [Outcome.bind_of_ok done]
      have further := agree.expressionAt_under under done
      rcases (expressionAt_settled rules done).next (by decide) with ends | impossible
      · exact agree.iterate_of_settled left further ends
      · exact absurd impossible (Level.ofKind_ne_unary _)

theorem exponent_eq (under : c.Under (n + 1)) :
    rules.expressionAt .factor c = layers.exponent c := by
  have isOperator (token : Token) : Level.ofKind? token.kind = some .exponent ↔
      token.terminal? = some (.symbol .starStar) :=
    Level.ofKind_iff fun terminal => by
      cases terminal with
      | symbol s => cases s <;> decide
      | keyword k => cases k <;> decide
      | name => decide
  have extending (left : Expr) (token : Token)
      (found : Level.ofKind? token.kind = some .exponent) :
      rules.extend left token .exponent =
        (do return .binary left token (← rules.expression .factor)) := by
    unfold Rules.extend
    rw [Token.kind_of_symbol ((isOperator token).mp found)]
    rfl
  rw [show Level.factor = Level.exponent.lower from rfl,
    agree.expressionAt_lower (by decide) (fun left token c e after found done => ?_) under]
  · unfold Layers.exponent
    refine Outcome.bind_congr_both (agree.exponent_of_unary under) fun left after done => ?_
    rw [← agree.exponent_of_unary under] at done
    rw [peek_bind, peek_bind]
    simp only [isOperator]
    split_ifs with isPower
    · have more := (isOperator _).mpr isPower
      rw [extending _ _ more, advance_bind, advance_bind]
      exact Outcome.bind_congr (agree.exponent _
        (advance_under (agree.expressionAt_under under done) more))
    · rfl
  · rw [extending _ _ found] at done
    obtain ⟨right, last, read, rest⟩ := Outcome.ok_of_bind done
    cases rest
    exact agree.steady.settles _ _ _ _ read

omit agree in
theorem extend_binary {level : Level} (low : Level.and.rank < level.rank)
    (high : level.rank < Level.exponent.rank) (left : Expr) (token : Token)
    (found : Level.ofKind? token.kind = some level) :
    rules.extend left token level =
      (do return .binary left token (← rules.expression level)) := by
  unfold Rules.extend
  cases kind : token.kind with
  | symbol s =>
      rw [kind] at found
      cases s with
      | minus | plus | slash | star | bangEqual | equalEqual | greater | greaterEqual | less
      | lessEqual => rfl
      | _ => cases found <;> first | exact absurd low (by decide) | exact absurd high (by decide)
  | keyword k =>
      rw [kind] at found
      cases k <;> cases found <;> exact absurd low (by decide)
  | _ =>
      rw [kind] at found
      cases found

omit agree in
theorem extend_logical {level : Level} (which : level = .or ∨ level = .and) (left : Expr)
    (token : Token) (found : Level.ofKind? token.kind = some level) :
    rules.extend left token level =
      (do return .logical left token (← rules.expression level)) := by
  unfold Rules.extend
  cases kind : token.kind with
  | symbol s =>
      rw [kind] at found
      rcases which with rfl | rfl <;> cases s <;> cases found
  | keyword k =>
      rw [kind] at found
      cases k with
      | andWord | orWord => rfl
      | _ => cases found
  | _ =>
      rw [kind] at found
      cases found

theorem factor_eq (under : c.Under (n + 1)) : rules.expressionAt .term c = layers.factor c :=
  agree.leftLayer_eq .factor (by decide)
    (fun terminal => by cases terminal with | name => rfl | _ operator => cases operator <;> rfl)
    (extend_binary (by decide) (by decide)) (fun _ => agree.exponent_eq)
    (agree.tighter .factor (by decide)) under

theorem term_eq (under : c.Under (n + 1)) : rules.expressionAt .comparison c = layers.term c :=
  agree.leftLayer_eq .term (by decide)
    (fun terminal => by cases terminal with | name => rfl | _ operator => cases operator <;> rfl)
    (extend_binary (by decide) (by decide)) (fun _ => agree.factor_eq)
    (agree.tighter .term (by decide)) under

theorem comparison_eq (under : c.Under (n + 1)) :
    rules.expressionAt .equality c = layers.comparison c :=
  agree.leftLayer_eq .comparison (by decide)
    (fun terminal => by cases terminal with | name => rfl | _ operator => cases operator <;> rfl)
    (extend_binary (by decide) (by decide)) (fun _ => agree.term_eq)
    (agree.tighter .comparison (by decide)) under

theorem equality_eq (under : c.Under (n + 1)) : rules.expressionAt .and c = layers.equality c :=
  agree.leftLayer_eq .equality (by decide)
    (fun terminal => by cases terminal with | name => rfl | _ operator => cases operator <;> rfl)
    (extend_binary (by decide) (by decide)) (fun _ => agree.comparison_eq)
    (agree.tighter .equality (by decide)) under

theorem and_eq (under : c.Under (n + 1)) : rules.expressionAt .or c = layers.and c :=
  agree.leftLayer_eq .and (by decide)
    (fun terminal => by cases terminal with | name => rfl | _ operator => cases operator <;> rfl)
    (extend_logical (.inr rfl)) (fun _ => agree.equality_eq) (agree.tighter .and (by decide)) under

theorem or_eq (under : c.Under (n + 1)) : rules.expressionAt .ternary c = layers.or c :=
  agree.leftLayer_eq .or (by decide)
    (fun terminal => by cases terminal with | name => rfl | _ operator => cases operator <;> rfl)
    (extend_logical (.inl rfl)) (fun _ => agree.and_eq) (agree.tighter .or (by decide)) under

/-- The branch before the colon may be any expression. -/
theorem ternary_eq (under : c.Under (n + 1)) :
    rules.expressionAt .assignment c = layers.ternary c := by
  have isOperator (token : Token) : Level.ofKind? token.kind = some .ternary ↔
      token.terminal? = some (.symbol .question) :=
    Level.ofKind_iff fun terminal => by
      cases terminal with
      | symbol s => cases s <;> decide
      | keyword k => cases k <;> decide
      | name => decide
  have extending (left : Expr) (token : Token)
      (found : Level.ofKind? token.kind = some .ternary) :
      rules.extend left token .ternary = (do
        let thenBranch ← rules.expression .lowest
        let _ ← Rule.expect (.symbol .colon) .ternaryColon
        return .ternary left thenBranch (← rules.expression .assignment)) := by
    unfold Rules.extend
    rw [Token.kind_of_symbol ((isOperator token).mp found)]
    rfl
  rw [show Level.assignment = Level.ternary.lower from rfl,
    agree.expressionAt_lower (by decide) (fun left token c e after found done => ?_) under]
  · unfold Layers.ternary
    refine Outcome.bind_congr_both (agree.or_eq under) fun left after done => ?_
    rw [← agree.or_eq under] at done
    rw [peek_bind, peek_bind]
    simp only [isOperator]
    split_ifs with isChoice
    · have more := (isOperator _).mpr isChoice
      rw [extending _ _ more, advance_bind, advance_bind]
      have inner := advance_under (agree.expressionAt_under under done) more
      refine Outcome.bind_congr_both (agree.assignment _ inner) fun thenBranch middle read => ?_
      have read' := (agree.assignment _ inner).trans read
      have later := agree.expression_under inner read'
      refine Outcome.bind_congr_both rfl fun colon last passed => ?_
      exact Outcome.bind_congr (agree.ternary _ (later.expect passed))
    · rfl
  · rw [extending _ _ found] at done
    obtain ⟨_, _, -, rest⟩ := Outcome.ok_of_bind done
    obtain ⟨_, _, -, rest⟩ := Outcome.ok_of_bind rest
    obtain ⟨elseBranch, last, read, rest⟩ := Outcome.ok_of_bind rest
    cases rest
    exact agree.steady.settles _ _ _ _ read

/-- What is to the left of an assignment has been read in full when the operator is met, and only then
is it known whether it can be assigned to. -/
theorem assignment_eq (under : c.Under (n + 1)) :
    rules.expressionAt .lowest c = layers.assignment c := by
  have isOperator (token : Token) : Level.ofKind? token.kind = some .assignment ↔
      token.terminal? = some (.symbol .equal) :=
    Level.ofKind_iff fun terminal => by
      cases terminal with
      | symbol s => cases s <;> decide
      | keyword k => cases k <;> decide
      | name => decide
  have extending (left : Expr) (token : Token)
      (found : Level.ofKind? token.kind = some .assignment) :
      rules.extend left token .assignment = (do
        let value ← rules.expression .lowest
        Rules.assignment token left value) := by
    unfold Rules.extend
    rw [Token.kind_of_symbol ((isOperator token).mp found)]
    rfl
  rw [show Level.lowest = Level.assignment.lower from rfl,
    agree.expressionAt_lower (by decide) (fun left token c e after found done => ?_) under]
  · unfold Layers.assignment
    refine Outcome.bind_congr_both (agree.ternary_eq under) fun target after done => ?_
    rw [← agree.ternary_eq under] at done
    rw [peek_bind, peek_bind]
    simp only [isOperator]
    split_ifs with isAssignment
    · have more := (isOperator _).mpr isAssignment
      rw [extending _ _ more, advance_bind, advance_bind]
      have inner := advance_under (agree.expressionAt_under under done) more
      refine Outcome.bind_congr_both (agree.assignment _ inner) fun value last _ => ?_
      cases target <;> rfl
    · rfl
  · rw [extending _ _ found] at done
    obtain ⟨value, last, read, rest⟩ := Outcome.ok_of_bind done
    have same : after = last := by
      unfold Rules.assignment at rest
      split at rest <;> cases rest <;> rfl
    exact same ▸ agree.steady.settles _ _ _ _ read

theorem above_eq (under : c.Under (n + 1)) : ∀ level : Level, level.rank ≤ Level.unary.rank →
    rules.expressionAt level c = layers.above level c
  | .lowest, _ => agree.assignment_eq under
  | .assignment, _ => agree.ternary_eq under
  | .ternary, _ => agree.or_eq under
  | .or, _ => agree.and_eq under
  | .and, _ => agree.equality_eq under
  | .equality, _ => agree.comparison_eq under
  | .comparison, _ => agree.term_eq under
  | .term, _ => agree.factor_eq under
  | .factor, _ => agree.exponent_eq under
  | .exponent, _ => agree.exponent_of_unary under
  | .unary, _ => agree.unary_eq under
  | .call, impossible => absurd impossible (by decide)
  | .primary, impossible => absurd impossible (by decide)

end Rules.Agree

theorem expression_settled : ∀ (depth : Nat) (min : Level) (c : Cursor) (e : Expr) (after : Cursor),
    expression depth min c = .ok e after → after.Settled min
  | 0, _, _, _, _, done => nomatch done
  | depth + 1, _, _, _, _, done => Rules.expressionAt_settled (rulesAt depth) done

theorem rulesAt_steady {depth n : Nat} (enough : 3 * n ≤ depth) : (rulesAt depth).Steady n :=
  ⟨rulesAt_abreast (3 * n) enough enough, expression_settled depth⟩

/-- A depth that is enough reads the same as any other that is. -/
theorem expression_eq {depth other : Nat} (min : Level) {c : Cursor} (ends : c.stop.isEnd = true)
    (enough : 3 * c.pending.length + 1 ≤ depth) (also : 3 * c.pending.length + 1 ≤ other) :
    expression depth min c = expression other min c :=
  Reading.self.outcome_eq ((rulesAt_abreast _ enough also).expression c.pending.length min
    (Nat.le_refl _)) ends rfl fun _ _ _ read => read.2.eq Reading.self.exact

theorem expression_not_exhausted {depth : Nat} (min : Level) {c : Cursor}
    (ends : c.stop.isEnd = true) (enough : 3 * c.pending.length + 1 ≤ depth) (after : Cursor) :
    expression depth min c ≠ .error .exhausted after :=
  Reading.self.not_exhausted ((rulesAt_abreast _ enough enough).expression c.pending.length min
    (Nat.le_refl _)) ends rfl after

theorem layersAt_bound (depth : Nat) : (layersAt depth).bound = depth := by
  cases depth with
  | zero => rfl
  | succ depth => rfl

theorem layersAt_body (depth : Nat) :
    (rulesAt depth).functionBody none .function = (layersAt depth).toBody := by
  cases depth with
  | zero => rfl
  | succ depth => rfl

/-- Levels and layers agree where fewer tokens are left, hence where one more is. -/
theorem rulesAt_agree (n : Nat) :
    ∀ {depth : Nat}, 3 * n ≤ depth → (rulesAt depth).Agree (layersAt depth) n := by
  induction n with
  | zero =>
      intro depth enough
      have none (c : Cursor) (under : c.Under 0) : False := Nat.not_lt_zero _ under.few
      exact ⟨rulesAt_steady enough, Nat.zero_le _, layersAt_bound depth,
        fun c under => (none c under).elim, fun c under => (none c under).elim,
        fun c under => (none c under).elim, fun c under => (none c under).elim,
        layersAt_body depth, fun _ _ c under => (none c under).elim⟩
  | succ n ih =>
      intro depth enough
      obtain ⟨inner, rfl⟩ : ∃ inner, depth = inner + 1 := ⟨depth - 1, by omega⟩
      have within := ih (show 3 * n ≤ inner by omega)
      have here := ih (show 3 * n ≤ inner + 1 by omega)
      refine ⟨rulesAt_steady enough, by change n + 1 ≤ inner + 1; omega, rfl,
        fun c under => within.above_eq under .lowest (by decide),
        fun c under => within.above_eq under .assignment (by decide),
        fun c under => within.above_eq under .factor (by decide),
        fun c under => within.above_eq under .unary (by decide), rfl, ?_⟩
      intro level loose c under
      have few := under.few
      calc expression (inner + 1) level c
          = expression (inner + 1 + 1) level c :=
            expression_eq level under.ends (by omega) (by omega)
        _ = (layersAt (inner + 1)).above level c := here.above_eq under level loose

/-- At every depth that is enough, levels read what layers read. -/
theorem expression_above {min : Level} (loose : min.rank ≤ Level.unary.rank) {c : Cursor}
    (ends : c.stop.isEnd = true) {depth other : Nat} (enough : 3 * c.pending.length ≤ depth)
    (also : 3 * c.pending.length + 1 ≤ other) :
    expression other min c = (layersAt depth).above min c := by
  rw [expression_eq min ends also (show _ ≤ depth + 1 by omega)]
  exact (rulesAt_agree c.pending.length enough).above_eq ⟨ends, Nat.lt_succ_self _⟩ min loose

theorem Cursor.ofTokens_ends (tokens : List Token) (firstId : NodeId) :
    (Cursor.ofTokens tokens firstId).stop.isEnd = true := by
  unfold Cursor.ofTokens
  cases found : tokens.find? (·.isEnd) with
  | none => rfl
  | some token => exact List.find?_some found

/-- From any place in any row of tokens, with any number for the first node, and for every level from the
loosest up to that of the prefix operators, reading by levels and reading by layers have one outcome:
the same expression with the same nodes and the same tokens left, or the same error. Neither is ever
cut off for its depth. -/
theorem levels_agree_with_layers (tokens : List Token) (position : Nat) (firstId : NodeId)
    (min : Level) (loose : min.rank ≤ Level.unary.rank) :
    parseExpression min (Cursor.ofTokens (tokens.drop position) firstId) =
        layered min (Cursor.ofTokens (tokens.drop position) firstId) ∧
      ∀ after, parseExpression min (Cursor.ofTokens (tokens.drop position) firstId) ≠
        .error .exhausted after := by
  have ends := Cursor.ofTokens_ends (tokens.drop position) firstId
  generalize Cursor.ofTokens (tokens.drop position) firstId = cursor at ends ⊢
  have enough : 3 * cursor.pending.length + 1 ≤ cursor.depth := by
    unfold Cursor.depth depthFor
    omega
  constructor
  · exact expression_above loose ends (by omega) enough
  · exact expression_not_exhausted min ends enough

/-- A sum is left for a looser level than that of the terms. -/
theorem levels_agree_with_layers_for_power :
    let number (value : Float) (text : String) : Token := ⟨.number value, text, 0⟩
    let tokens := [number 2 "2", ⟨.symbol .starStar, "**", 0⟩, number 3 "3",
      ⟨.symbol .plus, "+", 0⟩, number 1 "1", Token.atEnd 0]
    Level.term.rank ≤ Level.unary.rank ∧
      parseExpression .term (Cursor.ofTokens (tokens.drop 0) 7) =
        layered .term (Cursor.ofTokens (tokens.drop 0) 7) ∧
      ∃ e after, layered .term (Cursor.ofTokens (tokens.drop 0) 7) = .ok e after ∧
        after.pending.length = 2 := by
  intro number tokens
  have loose : Level.term.rank ≤ Level.unary.rank := by decide
  exact ⟨loose, (levels_agree_with_layers tokens 0 7 .term loose).1, _, _, rfl, rfl⟩

end Lox.Grammar
