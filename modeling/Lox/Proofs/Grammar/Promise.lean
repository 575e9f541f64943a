import Lox.Grammar.Cursor
import Lox.Proofs.Outcome
import Lox.Proofs.Token.Spelling
import Mathlib.Data.List.Nodup
import Mathlib.Tactic.SplitIfs

set_option autoImplicit false

/-! What rules of the grammar promise. A rule gives node numbers out upwards, whether it succeeds or fails,
and if it is told that the tokens it starts with are properly spelled, it leaves such tokens; when it
succeeds, what it yields satisfies a promise that may speak of the next free number. -/

namespace Lox

/-- No number occurs twice in a list, and all of them lie between two bounds. -/
def Numbered (low high : Nat) (ids : List Nat) : Prop :=
  ∀ id, ids.count id ≤ if low ≤ id ∧ id < high then 1 else 0

namespace Numbered

variable {low middle high : Nat} {ids others : List Nat}

theorem nil : Numbered low high [] := by
  intro id
  exact Nat.zero_le _

theorem singleton (id : Nat) : Numbered id (id + 1) [id] := by
  intro other
  rw [List.count_singleton]
  split <;> split <;> simp_all

theorem append (first : Numbered low middle ids) (second : Numbered middle high others)
    (up : low ≤ middle) (more : middle ≤ high) : Numbered low high (ids ++ others) := by
  intro id
  have one := first id
  have two := second id
  rw [List.count_append]
  split_ifs at one two ⊢ <;> omega

theorem widen {lower higher : Nat} (numbered : Numbered low high ids) (down : lower ≤ low)
    (up : high ≤ higher) : Numbered lower higher ids := by
  intro id
  have one := numbered id
  split_ifs at one ⊢ <;> omega

theorem perm (numbered : Numbered low high ids) (same : others.Perm ids) :
    Numbered low high others := by
  intro id
  rw [same.count_eq]
  exact numbered id

theorem nodup (numbered : Numbered low high ids) : ids.Nodup := by
  refine List.nodup_iff_count_le_one.mpr fun id => Nat.le_trans (numbered id) ?_
  split <;> omega

theorem bounds (numbered : Numbered low high ids) {id : Nat} (member : id ∈ ids) :
    low ≤ id ∧ id < high := by
  have positive := List.count_pos_iff.mpr member
  have one := numbered id
  split_ifs at one with inside
  · exact inside
  · omega

end Numbered

namespace Grammar

/-- All tokens that a cursor can still meet are properly spelled. -/
structure Cursor.Spelled (cursor : Cursor) : Prop where
  pending : ∀ token ∈ cursor.pending, token.Spelled
  stop : cursor.stop.Spelled

/-- A rule that starts at a given number keeps its promise; it may have been told that all tokens are
properly spelled. -/
def Promises {α : Type} (told : Prop) (start : Nat) (rule : Rule α) (good : Nat → α → Prop) : Prop :=
  ∀ cursor : Cursor, (told → cursor.Spelled) → cursor.nextId = start →
    match rule cursor with
    | .ok a after => (told → after.Spelled) ∧ start ≤ after.nextId ∧ good after.nextId a
    | .error _ after => (told → after.Spelled) ∧ start ≤ after.nextId

namespace Promises

variable {α β : Type} {told : Prop} {start : Nat} {rule : Rule α} {good : Nat → α → Prop}

theorem pure {a : α} (isGood : good start a) : Promises told start (return a) good := by
  intro cursor spelled same
  subst same
  exact ⟨spelled, Nat.le_refl _, isGood⟩

theorem bind {next : Nat → β → Prop} {second : α → Rule β}
    (one : Promises told start rule good)
    (two : ∀ middle a, start ≤ middle → good middle a → Promises told middle (second a) next) :
    Promises told start (rule >>= second) next := by
  intro cursor spelled same
  have first := one cursor spelled same
  cases result : rule cursor with
  | ok a after =>
      rw [result] at first
      rw [Outcome.bind_of_ok result]
      have later := two after.nextId a first.2.1 first.2.2 after first.1 rfl
      cases outcome : second a after with
      | ok b last =>
          rw [outcome] at later
          exact ⟨later.1, Nat.le_trans first.2.1 later.2.1, later.2.2⟩
      | error failure last =>
          rw [outcome] at later
          exact ⟨later.1, Nat.le_trans first.2.1 later.2⟩
  | error failure after =>
      rw [result] at first
      rw [Outcome.bind_of_error result]
      exact first

theorem imp {better : Nat → α → Prop} (promises : Promises told start rule good)
    (improves : ∀ last a, start ≤ last → good last a → better last a) :
    Promises told start rule better := by
  intro cursor spelled same
  have kept := promises cursor spelled same
  cases result : rule cursor with
  | ok a after =>
      rw [result] at kept
      exact ⟨kept.1, kept.2.1, improves _ a kept.2.1 kept.2.2⟩
  | error failure after =>
      rw [result] at kept
      exact kept

theorem bind_still {holds : α → Prop} {next : Nat → β → Prop} {second : α → Rule β}
    (one : Promises told start rule fun last a => last = start ∧ holds a)
    (two : ∀ a, holds a → Promises told start (second a) next) :
    Promises told start (rule >>= second) next := by
  refine one.bind fun middle a _ kept => ?_
  rw [kept.1]
  exact two a kept.2

theorem map {next : Nat → β → Prop} (promises : Promises told start rule good) (g : α → β)
    (improves : ∀ last a, start ≤ last → good last a → next last (g a)) :
    Promises told start (do let a ← rule; return g a) next :=
  promises.bind fun last a up isGood => Promises.pure (improves last a up isGood)

theorem fmap {next : Nat → β → Prop} (promises : Promises told start rule good) (g : α → β)
    (improves : ∀ last a, start ≤ last → good last a → next last (g a)) :
    Promises told start (g <$> rule) next := by
  have same : g <$> rule = (do let a ← rule; return g a) := by
    rw [← bind_pure_comp]
  rw [same]
  exact promises.map g improves

end Promises

namespace Rule

variable {α : Type} {told : Prop} {start : Nat}

theorem fail_promises {good : Nat → α → Prop} (fault : SyntaxFault) :
    Promises told start (fail fault) good := by
  intro cursor spelled same
  exact ⟨spelled, Nat.le_of_eq same.symm⟩

theorem failAt_promises {good : Nat → α → Prop} (fault : SyntaxFault) (token : Token) :
    Promises told start (failAt fault token) good := by
  intro cursor spelled same
  exact ⟨spelled, Nat.le_of_eq same.symm⟩

theorem next_spelled {cursor : Cursor} (spelled : cursor.Spelled) : cursor.next.Spelled := by
  unfold Cursor.next
  cases tokens : cursor.pending with
  | nil => exact spelled.stop
  | cons token rest => exact spelled.pending token (by rw [tokens]; exact List.mem_cons_self)

theorem peek_promises :
    Promises told start peek fun last token => last = start ∧ (told → token.Spelled) := by
  intro cursor spelled same
  exact ⟨spelled, Nat.le_of_eq same.symm, same, fun isTold => next_spelled (spelled isTold)⟩

theorem atEnd_promises : Promises told start atEnd fun last _ => last = start ∧ True := by
  intro cursor spelled same
  exact ⟨spelled, Nat.le_of_eq same.symm, same, trivial⟩

theorem advance_spelled {cursor : Cursor} (spelled : cursor.Spelled) :
    Cursor.Spelled { cursor with pending := cursor.pending.tail } :=
  ⟨fun token member => spelled.pending token (List.mem_of_mem_tail member), spelled.stop⟩

theorem advance_promises : Promises told start advance fun last _ => last = start ∧ True := by
  intro cursor spelled same
  exact ⟨fun isTold => advance_spelled (spelled isTold), Nat.le_of_eq same.symm, same, trivial⟩

theorem check_promises (terminal : Terminal) :
    Promises told start (check terminal) fun last _ => last = start ∧ True := by
  intro cursor spelled same
  exact ⟨spelled, Nat.le_of_eq same.symm, same, trivial⟩

theorem checkSecond_promises (terminal : Terminal) :
    Promises told start (checkSecond terminal) fun last _ => last = start ∧ True := by
  intro cursor spelled same
  exact ⟨spelled, Nat.le_of_eq same.symm, same, trivial⟩

theorem accept_promises (terminal : Terminal) :
    Promises told start (accept terminal) fun last _ => last = start ∧ True := by
  refine (check_promises terminal).bind_still fun found _ => ?_
  cases found with
  | false => exact Promises.pure ⟨rfl, trivial⟩
  | true => exact advance_promises.bind_still fun _ _ => Promises.pure ⟨rfl, trivial⟩

theorem fresh_bind_promises {good : Nat → α → Prop} {second : NodeId → Rule α}
    (rest : Promises told (start + 1) (second start) good) :
    Promises told start (fresh >>= second) good := by
  have given : Promises told start fresh fun last id => last = start + 1 ∧ id = start := by
    intro cursor spelled same
    subst same
    exact ⟨fun isTold => ⟨(spelled isTold).pending, (spelled isTold).stop⟩, Nat.le_succ _, rfl, rfl⟩
  refine given.bind fun middle id _ same => ?_
  rw [same.1, same.2]
  exact rest

theorem expect_promises (terminal : Terminal) (fault : SyntaxFault) :
    Promises told start (expect terminal fault) fun last token =>
      last = start ∧ (told → token.Spelled) ∧ token.terminal? = some terminal := by
  intro cursor spelled same
  cases found : (cursor.pending.head?.bind Token.terminal? == some terminal) with
  | false =>
      have result : expect terminal fault cursor = .error (.error ⟨fault, cursor.next⟩) cursor := by
        rw [expect, Outcome.bind_of_ok (show check terminal cursor = .ok false cursor by
          rw [check, found])]
        rfl
      rw [result]
      exact ⟨spelled, Nat.le_of_eq same.symm⟩
  | true =>
      have result : expect terminal fault cursor =
          .ok cursor.next { cursor with pending := cursor.pending.tail } := by
        rw [expect, Outcome.bind_of_ok (show check terminal cursor = .ok true cursor by
          rw [check, found])]
        rfl
      rw [result]
      refine ⟨fun isTold => advance_spelled (spelled isTold), Nat.le_of_eq same.symm, same,
        fun isTold => next_spelled (spelled isTold), ?_⟩
      unfold Cursor.next
      cases tokens : cursor.pending with
      | nil =>
          rw [tokens] at found
          cases found
      | cons token rest =>
          rw [tokens] at found
          exact beq_iff_eq.mp found

section Iterate

variable {σ : Type} {round : σ → Rule (Round σ α)} {bound : Nat} {state : σ} {cursor after : Cursor}

theorem iterate_of_again {further : σ} (again : round state cursor = .ok (.again further) after) :
    iterate round (bound + 1) state cursor = iterate round bound further after := by
  simp only [iterate, again]

theorem iterate_of_finish {a : α} (finish : round state cursor = .ok (.finish a) after) :
    iterate round (bound + 1) state cursor = .ok a after := by
  simp only [iterate, finish]

theorem iterate_of_error {failure : Failure} (failed : round state cursor = .error failure after) :
    iterate round (bound + 1) state cursor = .error failure after := by
  simp only [iterate, failed]

end Iterate

/-- What the rounds of a repeated rule keep, and what the last of them yields. -/
def Kept {σ : Type} (invariant : Nat → σ → Prop) (good : Nat → α → Prop) (last : Nat) :
    Round σ α → Prop
  | .again state => invariant last state
  | .finish result => good last result

/-- A repeated rule keeps what each of its rounds keeps. -/
theorem iterate_promises {σ : Type} {round : σ → Rule (Round σ α)} {invariant : Nat → σ → Prop}
    {good : Nat → α → Prop}
    (step : ∀ middle state, invariant middle state →
      Promises told middle (round state) (Kept invariant good)) :
    ∀ (bound start : Nat) (state : σ), invariant start state →
      Promises told start (iterate round bound state) good
  | 0, _, _, _ => fun _ spelled same => ⟨spelled, Nat.le_of_eq same.symm⟩
  | bound + 1, start, state, holds => by
      intro cursor spelled same
      have first := step start state holds cursor spelled same
      cases result : round state cursor with
      | error failure after =>
          rw [result] at first
          rw [iterate_of_error result]
          exact first
      | ok outcome after =>
          rw [result] at first
          cases outcome with
          | finish a =>
              rw [iterate_of_finish result]
              exact first
          | again further =>
              rw [iterate_of_again result]
              have later := iterate_promises step bound after.nextId further first.2.2 after
                first.1 rfl
              cases final : iterate round bound further after with
              | ok a last =>
                  rw [final] at later
                  exact ⟨later.1, Nat.le_trans first.2.1 later.2.1, later.2.2⟩
              | error failure last =>
                  rw [final] at later
                  exact ⟨later.1, Nat.le_trans first.2.1 later.2⟩

end Rule

theorem mem_of_mem_resume : ∀ (passed : Token) (tokens : List Token) (token : Token),
    token ∈ resume passed tokens → token ∈ tokens
  | _, [], _, member => member
  | passed, first :: rest, token, member => by
      rw [resume] at member
      split at member
      · exact member
      · exact List.mem_cons_of_mem _ (mem_of_mem_resume first rest token member)

theorem Cursor.Spelled.synchronize {cursor : Cursor} (spelled : cursor.Spelled) :
    cursor.synchronize.Spelled := by
  unfold Cursor.synchronize
  cases tokens : cursor.pending with
  | nil => exact spelled
  | cons first rest =>
      refine ⟨fun token member => spelled.pending token ?_, spelled.stop⟩
      rw [tokens]
      exact List.mem_cons_of_mem _ (mem_of_mem_resume first rest token member)

theorem Cursor.nextId_synchronize (cursor : Cursor) :
    cursor.synchronize.nextId = cursor.nextId := by
  unfold Cursor.synchronize
  split <;> rfl

/-- After an error nothing is yielded, so nothing needs to be promised. -/
theorem recover_promises {α : Type} {told : Prop} {start : Nat} {rule : Rule α} {good : Nat → α → Prop}
    (promises : Promises told start rule good) :
    Promises told start (recover rule) fun last found => ∀ a ∈ found, good last a := by
  intro cursor spelled same
  have kept := promises cursor spelled same
  cases result : rule cursor with
  | ok a after =>
      rw [result] at kept
      simp only [recover, result]
      refine ⟨kept.1, kept.2.1, fun b member => ?_⟩
      cases member
      exact kept.2.2
  | error failure after =>
      rw [result] at kept
      cases failure with
      | exhausted =>
          simp only [recover, result]
          exact kept
      | error e =>
          cases fatal : e.fault.isFatal with
          | true =>
              simp only [recover, result, fatal, if_true]
              exact kept
          | false =>
              simp only [recover, result, fatal, Bool.false_eq_true, if_false]
              refine ⟨fun isTold =>
                Cursor.Spelled.synchronize ⟨(kept.1 isTold).pending, (kept.1 isTold).stop⟩, ?_, nofun⟩
              rw [Cursor.nextId_synchronize]
              exact kept.2

end Grammar
end Lox
