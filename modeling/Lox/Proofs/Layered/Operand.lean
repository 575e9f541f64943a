import Lox.Proofs.Layered.Loop

set_option autoImplicit false

/-! Operands read by levels and by layers: what the two refer back to is assumed to agree on fewer tokens,
and so their arguments, prefix operators, calls and properties agree. -/

namespace Lox.Grammar

/-- Levels and layers that agree where fewer than so many tokens are left. -/
structure Rules.Agree (rules : Rules) (layers : Layers) (n : Nat) : Prop where
  steady : rules.Steady n
  enough : n ≤ rules.bound
  bounds : layers.bound = rules.bound
  assignment : ∀ c : Cursor, c.Under n → rules.expression .lowest c = layers.toAssignment c
  ternary : ∀ c : Cursor, c.Under n → rules.expression .assignment c = layers.toTernary c
  exponent : ∀ c : Cursor, c.Under n → rules.expression .factor c = layers.toExponent c
  unary : ∀ c : Cursor, c.Under n → rules.expression .unary c = layers.toUnary c
  body : rules.functionBody none .function = layers.toBody
  tighter : ∀ (level : Level), level.rank ≤ Level.unary.rank → ∀ c : Cursor, c.Under n →
    rules.expression level c = layers.above level c

theorem Rule.iterate_congr {σ α : Type} {round other : σ → Rule (Rule.Round σ α)}
    (holds : Cursor → Prop)
    (step : ∀ state c, holds c → round state c = other state c ∧
      ∀ next after, round state c = .ok (.again next) after → holds after) :
    ∀ (bound : Nat) (state : σ) (c : Cursor), holds c →
      Rule.iterate round bound state c = Rule.iterate other bound state c
  | 0, _, _, _ => rfl
  | bound + 1, state, c, start => by
      obtain ⟨same, kept⟩ := step state c start
      cases first : round state c with
      | error failure after =>
          rw [Rule.iterate_of_error first, Rule.iterate_of_error (same.symm.trans first)]
      | ok outcome after =>
          cases outcome with
          | finish a =>
              rw [Rule.iterate_of_finish first, Rule.iterate_of_finish (same.symm.trans first)]
          | again next =>
              rw [Rule.iterate_of_again first, Rule.iterate_of_again (same.symm.trans first)]
              exact iterate_congr holds step bound next after (kept next after first)

theorem Rule.expect_eq_ok {terminal : Terminal} {fault : SyntaxFault} {c after : Cursor}
    {token : Token} (passed : expect terminal fault c = .ok token after) :
    token = c.next ∧ token.terminal? = some terminal ∧
      after = { c with pending := c.pending.tail } := by
  unfold expect at passed
  obtain ⟨found, middle, checked, rest⟩ := Outcome.ok_of_bind passed
  cases checked
  split at rest
  · next isNext =>
      cases rest
      refine ⟨rfl, ?_, rfl⟩
      unfold Cursor.next
      cases tokens : c.pending with
      | nil =>
          rw [tokens] at isNext
          cases isNext
      | cons t rest =>
          rw [tokens] at isNext
          exact beq_iff_eq.mp isNext
  · cases rest

theorem Token.isEnd_of_terminal {token : Token} {terminal : Terminal}
    (found : token.terminal? = some terminal) : token.isEnd = false := by
  unfold Token.terminal? at found
  unfold Token.isEnd
  split
  · next ends =>
      rw [ends] at found
      cases found
  · rfl

namespace Level

/-- The level of a terminal between two operands. -/
def ofTerminal? : Terminal → Option Level
  | .symbol s => ofSymbol? s
  | .keyword k => ofKind? (.keyword k)
  | .name => none

theorem ofKind_eq (token : Token) : ofKind? token.kind = token.terminal?.bind ofTerminal? := by
  unfold Token.terminal?
  cases token.kind <;> rfl

theorem ofKind_of_terminal {token : Token} {terminal : Terminal} {level : Level}
    (found : token.terminal? = some terminal) (has : ofTerminal? terminal = some level) :
    ofKind? token.kind = some level := by
  rw [ofKind_eq, found]
  exact has

theorem terminal_of_ofKind {token : Token} {level : Level}
    (found : ofKind? token.kind = some level) :
    ∃ terminal, token.terminal? = some terminal ∧ ofTerminal? terminal = some level := by
  rw [ofKind_eq] at found
  exact Option.bind_eq_some_iff.mp found

theorem call_of_tighter {token : Token} {level : Level} (found : ofKind? token.kind = some level)
    (above : unary.rank < level.rank) :
    (token.terminal? = some (.symbol .leftParen) ∧ token.kind = .symbol .leftParen) ∨
      (token.terminal? = some (.symbol .dot) ∧ token.kind = .symbol .dot) := by
  unfold Token.terminal?
  cases kind : token.kind with
  | symbol s =>
      rw [kind] at found
      cases s with
      | leftParen => exact .inl ⟨rfl, rfl⟩
      | dot => exact .inr ⟨rfl, rfl⟩
      | _ =>
          cases found <;> exact absurd above (by decide)
  | keyword k =>
      rw [kind] at found
      cases k <;> cases found <;> exact absurd above (by decide)
  | _ =>
      rw [kind] at found
      cases found

end Level

namespace Cursor

variable {c : Cursor} {n : Nat}

theorem pending_pos (ends : c.stop.isEnd = true) (opens : c.next.isEnd = false) :
    0 < c.pending.length := by
  refine List.length_pos_iff.mpr fun none => ?_
  rw [next, none, List.headD_nil, ends] at opens
  cases opens

theorem Under.advance (under : c.Under (n + 1)) (opens : c.next.isEnd = false) :
    Cursor.Under { c with pending := c.pending.tail } n := by
  refine ⟨under.ends, ?_⟩
  have some := pending_pos under.ends opens
  have few := under.few
  rw [List.length_tail]
  omega

theorem Under.expect (under : c.Under n) {terminal : Terminal} {fault : SyntaxFault} {token : Token}
    {after : Cursor} (passed : Rule.expect terminal fault c = .ok token after) : after.Under n := by
  obtain ⟨-, -, rfl⟩ := Rule.expect_eq_ok passed
  refine ⟨under.ends, Nat.lt_of_le_of_lt ?_ under.few⟩
  exact (List.tail_suffix _).length_le

theorem Under.mono {m : Nat} (under : c.Under n) (le : n ≤ m) : c.Under m :=
  ⟨under.ends, Nat.lt_of_lt_of_le under.few le⟩

end Cursor

theorem peek_bind {α : Type} (f : Token → Rule α) (c : Cursor) :
    (Rule.peek >>= f) c = f c.next c :=
  Outcome.bind_of_ok (rfl : Rule.peek c = .ok c.next c)

theorem advance_bind {α : Type} (f : Unit → Rule α) (c : Cursor) :
    (Rule.advance >>= f) c = f () { c with pending := c.pending.tail } :=
  Outcome.bind_of_ok (rfl : Rule.advance c = .ok () _)

namespace Rules.Agree

variable {rules : Rules} {layers : Layers} {n : Nat} (agree : rules.Agree layers n) {c : Cursor}
include agree

theorem argumentRound_eq (found : List Expr) (under : c.Under n) :
    rules.argumentRound found c = layers.argumentRound found c := by
  unfold Rules.argumentRound Layers.argumentRound maxArity
  split
  · rfl
  · exact Outcome.bind_congr (agree.assignment c under)

theorem arguments_eq (under : c.Under n) : rules.arguments c = layers.arguments c := by
  unfold Rules.arguments Layers.arguments
  rw [agree.bounds]
  refine Outcome.bind_congr_both rfl fun closed after found => ?_
  have same : after = c := by
    cases found
    rfl
  subst same
  split
  · rfl
  · refine Rule.iterate_congr (fun c => c.Under n) (fun found c under => ?_) _ _ _ under
    refine ⟨agree.argumentRound_eq found under, fun next after again => ?_⟩
    have few := under.few
    obtain ⟨ends, -, twin, kept⟩ := Reading.self.reaches_of_ok
      (argumentRound_abreast agree.steady.abreast c.pending.length (by omega) found found
        (List.forall₂_same.mpr fun e _ => .refl Reading.self.reflexive e)) under.ends rfl again
    cases twin with
    | finish => exact kept.elim
    | again => exact ⟨ends, Nat.lt_trans kept.1 few⟩

omit agree in
theorem advance_under (under : c.Under n) {level : Level}
    (tight : Level.ofKind? c.next.kind = some level) :
    Cursor.Under { c with pending := c.pending.tail } n := by
  obtain ⟨terminal, found, -⟩ := Level.terminal_of_ofKind tight
  exact (under.mono (Nat.le_succ n)).advance (Token.isEnd_of_terminal found)

/-- Only a parenthesis or a dot binds tighter than a prefix operator. -/
theorem callRound_eq (left : Expr) (under : c.Under n) :
    rules.operatorRound .unary left c = layers.callRound left c := by
  unfold Layers.callRound
  rw [peek_bind]
  by_cases settled : c.Settled .unary
  · rw [operatorRound_of_settled rules settled, if_neg, if_neg]
    · rfl
    · intro isDot
      exact absurd (settled .call (Level.ofKind_of_terminal isDot rfl)) (by decide)
    · intro isCall
      exact absurd (settled .call (Level.ofKind_of_terminal isCall rfl)) (by decide)
  · obtain ⟨level, tight, above⟩ := tighter_of_not_settled settled
    have inner := advance_under under tight
    rw [operatorRound_of_tighter rules tight above]
    rcases Level.call_of_tighter tight above with ⟨isCall, isSymbol⟩ | ⟨isDot, isSymbol⟩
    · rw [if_pos isCall, advance_bind, advance_bind]
      unfold Rules.extend
      rw [isSymbol]
      dsimp only
      rw [bind_assoc]
      refine Outcome.bind_congr_both (agree.arguments_eq inner) fun arguments after _ => ?_
      rw [bind_assoc]
      rfl
    · rw [if_neg (by rw [isDot]; decide), if_pos isDot, advance_bind, advance_bind]
      unfold Rules.extend
      rw [isSymbol]
      dsimp only
      rw [bind_assoc]
      rfl

theorem call_loop_eq (left : Expr) (under : c.Under n) :
    Rule.iterate (rules.operatorRound .unary) rules.bound left c =
      Rule.iterate layers.callRound layers.bound left c := by
  rw [agree.bounds]
  refine Rule.iterate_congr (fun c => c.Under n) (fun left c under => ?_) _ _ _ under
  refine ⟨agree.callRound_eq left under, fun next after again => ?_⟩
  exact (agree.steady.operatorRound_under under again).mono (Nat.le_of_lt under.few)

theorem primary_eq (under : c.Under (n + 1))
    (bang : c.next.terminal? ≠ some (.symbol .bang))
    (minus : c.next.terminal? ≠ some (.symbol .minus)) : rules.operand c = layers.primary c := by
  have inner (opens : c.next.isEnd = false) := under.advance opens
  unfold Token.isEnd at inner
  unfold Token.terminal? at bang minus
  unfold Rules.operand Layers.primary
  rw [peek_bind, peek_bind, agree.body]
  cases kind : c.next.kind with
  | symbol s =>
      rw [kind] at bang minus inner
      cases s with
      | leftParen =>
          dsimp only
          rw [advance_bind, advance_bind]
          exact Outcome.bind_congr (agree.assignment _ (inner rfl))
      | bang => exact absurd rfl bang
      | minus => exact absurd rfl minus
      | _ => rfl
  | keyword k => cases k <;> rfl
  | _ => rfl

theorem operand_under (under : c.Under (n + 1)) {left : Expr} {after : Cursor}
    (done : rules.operand c = .ok left after) : after.Under n := by
  have few := under.few
  obtain ⟨ends, -, -, fewer, -⟩ := Reading.self.reaches_of_ok
    (operand_abreast agree.steady.abreast (n := c.pending.length) (by omega)) under.ends rfl done
  exact ⟨ends, by omega⟩

theorem iterate_of_settled {min : Level} (left : Expr) (under : c.Under n)
    (settled : c.Settled min) :
    Rule.iterate (rules.operatorRound min) rules.bound left c = .ok left c := by
  obtain ⟨bound, more⟩ := Nat.exists_eq_succ_of_ne_zero
    (Nat.ne_zero_of_lt (Nat.lt_of_lt_of_le under.few agree.enough))
  rw [more]
  exact Rule.iterate_of_finish (operatorRound_of_settled rules settled)

omit agree in
theorem operand_of_negation
    (isPrefix : c.next.terminal? = some (.symbol .bang) ∨
      c.next.terminal? = some (.symbol .minus)) :
    rules.operand c =
      (do Rule.advance; return Expr.unary c.next (← rules.expression .unary)) c := by
  have kinds : c.next.kind = .symbol .bang ∨ c.next.kind = .symbol .minus := by
    unfold Token.terminal? at isPrefix
    split at isPrefix <;> simp_all
  unfold Rules.operand
  rw [peek_bind]
  rcases kinds with kind | kind <;> rw [kind]

/-- The operand of a prefix operator takes the calls and properties that follow it. -/
theorem unary_eq (under : c.Under (n + 1)) : rules.expressionAt .unary c = layers.unary c := by
  unfold Layers.unary
  rw [peek_bind]
  unfold Rules.expressionAt
  by_cases isPrefix : c.next.terminal? = some (.symbol .bang) ∨
      c.next.terminal? = some (.symbol .minus)
  · have opens : c.next.isEnd = false := isPrefix.elim Token.isEnd_of_terminal
      Token.isEnd_of_terminal
    have inner := under.advance opens
    have same : rules.operand c =
        (do Rule.advance; return Expr.unary c.next (← layers.toUnary)) c := by
      rw [operand_of_negation isPrefix, advance_bind, advance_bind]
      exact Outcome.bind_congr (agree.unary _ inner)
    rw [if_pos isPrefix, Outcome.bind_congr same]
    cases done : rules.operand c with
    | error failure after =>
        rw [same] at done
        rw [Outcome.bind_of_error done, done]
    | ok left after =>
        have settled : after.Settled .unary := by
          rw [operand_of_negation isPrefix, advance_bind] at done
          obtain ⟨right, last, read, rest⟩ := Outcome.ok_of_bind done
          cases rest
          exact agree.steady.settles _ _ _ _ read
        have further := agree.operand_under under done
        rw [same] at done
        rw [Outcome.bind_of_ok done, agree.iterate_of_settled left further settled, done]
  · rw [if_neg isPrefix]
    unfold Layers.call
    push Not at isPrefix
    refine Outcome.bind_congr_both (agree.primary_eq under isPrefix.1 isPrefix.2)
      fun left after done => ?_
    apply agree.call_loop_eq
    rw [← agree.primary_eq under isPrefix.1 isPrefix.2] at done
    exact agree.operand_under under done

end Rules.Agree
end Lox.Grammar
