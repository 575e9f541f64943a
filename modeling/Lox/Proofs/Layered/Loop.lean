import Lox.Proofs.Layered.Layers
import Lox.Proofs.Reading.Program

set_option autoImplicit false

/-! The loop over operators that an expression is read with. How often it may be repeated makes no
difference once that is enough for the tokens that are left; it ends before an operator that binds no
tighter than was asked for; and it can be split at any level, tighter operators first. -/

namespace Lox

namespace Grammar

/-- Fewer tokens than a number are left, with an end after them. -/
structure Cursor.Under (cursor : Cursor) (n : Nat) : Prop where
  ends : cursor.stop.isEnd = true
  few : cursor.pending.length < n

/-- The next token is no operator that binds tighter than a level. -/
def Cursor.Settled (cursor : Cursor) (min : Level) : Prop :=
  ∀ level, Level.ofKind? cursor.next.kind = some level → level.rank ≤ min.rank

/-- Rules that read a row of so many tokens the same way twice. -/
structure Rules.Steady (rules : Rules) (n : Nat) : Prop where
  abreast : Rules.Abreast .self (3 * n) rules rules
  settles : ∀ (min : Level) (c : Cursor) (e : Expr) (after : Cursor),
    rules.expression min c = .ok e after → after.Settled min

theorem Rule.ok_of_iterate {σ α : Type} {round : σ → Rule (Rule.Round σ α)} {a : α}
    {after : Cursor} : ∀ {bound : Nat} {state : σ} {c : Cursor},
    Rule.iterate round bound state c = .ok a after →
      ∃ last before, round last before = .ok (.finish a) after
  | 0, _, _, done => nomatch done
  | bound + 1, state, c, done => by
      cases first : round state c with
      | error failure middle =>
          rw [Rule.iterate_of_error first] at done
          cases done
      | ok outcome middle =>
          cases outcome with
          | finish b =>
              rw [Rule.iterate_of_finish first] at done
              cases done
              exact ⟨state, c, first⟩
          | again further =>
              rw [Rule.iterate_of_again first] at done
              exact Rule.ok_of_iterate done

namespace Rules

variable {rules : Rules}

section Rounds

variable (rules) {min : Level} {left : Expr} {c : Cursor}

theorem operatorRound_of_settled (settled : c.Settled min) :
    rules.operatorRound min left c = .ok (.finish left) c := by
  unfold operatorRound
  rw [Outcome.bind_of_ok (rfl : Rule.peek c = .ok c.next c)]
  cases level : Level.ofKind? c.next.kind with
  | none => rfl
  | some level =>
      dsimp only
      rw [if_pos (settled _ (by assumption))]
      rfl

theorem operatorRound_of_tighter {level : Level} (tight : Level.ofKind? c.next.kind = some level)
    (above : min.rank < level.rank) :
    rules.operatorRound min left c =
      (do Rule.advance; return Rule.Round.again (← rules.extend left c.next level)) c := by
  unfold operatorRound
  rw [Outcome.bind_of_ok (rfl : Rule.peek c = .ok c.next c), tight]
  dsimp only
  rw [if_neg (Nat.not_le_of_lt above)]

theorem tighter_of_not_settled (loose : ¬c.Settled min) :
    ∃ level, Level.ofKind? c.next.kind = some level ∧ min.rank < level.rank := by
  refine Classical.byContradiction fun none => loose fun level tight => ?_
  exact Nat.le_of_not_lt fun above => none ⟨level, tight, above⟩

theorem operatorRound_finish {e : Expr} {after : Cursor}
    (done : rules.operatorRound min left c = .ok (.finish e) after) :
    c.Settled min ∧ after = c := by
  by_cases settled : c.Settled min
  · rw [operatorRound_of_settled rules settled] at done
    cases done
    exact ⟨settled, rfl⟩
  · obtain ⟨level, tight, above⟩ := tighter_of_not_settled settled
    rw [operatorRound_of_tighter rules tight above,
      Outcome.bind_of_ok (rfl : Rule.advance c = .ok () _)] at done
    obtain ⟨extended, last, -, impossible⟩ := Outcome.ok_of_bind done
    cases impossible

theorem iterate_settled {bound : Nat} {e : Expr} {after : Cursor}
    (done : Rule.iterate (rules.operatorRound min) bound left c = .ok e after) :
    after.Settled min := by
  obtain ⟨last, before, finished⟩ := Rule.ok_of_iterate done
  obtain ⟨settled, same⟩ := operatorRound_finish rules finished
  exact same ▸ settled

theorem expressionAt_settled {e : Expr} {after : Cursor}
    (done : rules.expressionAt min c = .ok e after) : after.Settled min := by
  unfold expressionAt at done
  obtain ⟨left, middle, -, rest⟩ := Outcome.ok_of_bind done
  exact iterate_settled rules rest

end Rounds

variable {n : Nat} (steady : rules.Steady n) {c : Cursor}
include steady

namespace Steady

theorem operatorRound_under {min : Level} {left next : Expr} {after : Cursor} (under : c.Under n)
    (again : rules.operatorRound min left c = .ok (.again next) after) :
    after.Under c.pending.length := by
  have few := under.few
  obtain ⟨ends, -, twin, kept⟩ := Reading.self.reaches_of_ok
    (operatorRound_abreast steady.abreast min c.pending.length (by omega) left left
      (.refl Reading.self.reflexive left)) under.ends rfl again
  cases twin with
  | finish => exact kept.elim
  | again => exact ⟨ends, kept.1⟩

/-- Any bound that is enough for the tokens that are left gives the same loop. -/
theorem iterate_eq {min : Level} {left : Expr} {bound limit : Nat} (under : c.Under n)
    (enough : c.pending.length < bound) (also : c.pending.length < limit) :
    Rule.iterate (rules.operatorRound min) bound left c =
      Rule.iterate (rules.operatorRound min) limit left c := by
  have few := under.few
  refine Reading.self.outcome_eq (Grammar.Abreast.iterate enough also
    (Expr.Like.refl Reading.self.reflexive left) fun m s t fewer =>
      operatorRound_abreast steady.abreast min m (by omega) s t) under.ends rfl ?_
  exact fun _ _ _ alike => alike.eq Reading.self.exact

/-- The operators of a loop that bind tighter than a level in between come first. -/
theorem iterate_split {low high : Level} (looser : low.rank ≤ high.rank) {limit : Nat} :
    ∀ {bound : Nat} {left : Expr} {c : Cursor}, c.Under n → c.pending.length < bound →
      c.pending.length < limit →
        Rule.iterate (rules.operatorRound low) bound left c =
          (do
            let tight ← Rule.iterate (rules.operatorRound high) bound left
            Rule.iterate (rules.operatorRound low) limit tight) c
  | 0, _, _, _, enough, _ => absurd enough (Nat.not_lt_zero _)
  | bound + 1, left, c, under, enough, also => by
      by_cases settled : c.Settled high
      · rw [Outcome.bind_of_ok
          (Rule.iterate_of_finish (operatorRound_of_settled rules settled))]
        exact iterate_eq steady under enough also
      · obtain ⟨level, tight, above⟩ := tighter_of_not_settled settled
        have same : rules.operatorRound low left c = rules.operatorRound high left c := by
          rw [operatorRound_of_tighter rules tight (Nat.lt_of_le_of_lt looser above),
            operatorRound_of_tighter rules tight above]
        cases first : rules.operatorRound high left c with
        | error failure after =>
            rw [Rule.iterate_of_error (same.trans first),
              Outcome.bind_of_error (Rule.iterate_of_error first)]
        | ok outcome after =>
            cases outcome with
            | finish e => exact absurd (operatorRound_finish rules first).1 settled
            | again next =>
                have fewer := operatorRound_under steady under first
                rw [Rule.iterate_of_again (same.trans first),
                  Outcome.bind_shift (Rule.iterate_of_again first)]
                exact iterate_split looser ⟨fewer.ends, Nat.lt_trans fewer.few under.few⟩
                  (Nat.lt_of_lt_of_le fewer.few (Nat.le_of_lt_succ enough))
                  (Nat.lt_trans fewer.few also)

end Steady

end Rules
end Grammar
end Lox
