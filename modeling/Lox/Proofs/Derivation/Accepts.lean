import Lox.Proofs.Derivation.Grammar
import Lox.Proofs.Reading.Program

set_option autoImplicit false

/-! What a rule accepts: the places that it leads to with no error recorded. A rule that is put together
from others accepts what its parts accept one after the other, because errors that have been recorded
are never taken back. -/

namespace Lox.Grammar

/-- The errors that were recorded before, and the end of the input, are kept. -/
def Keeps {α : Type} (c : Cursor) : EStateM.Result Failure Cursor α → Prop
  | .ok _ after => after.stop = c.stop ∧ c.recorded <:+ after.recorded
  | .error _ after => after.stop = c.stop ∧ c.recorded <:+ after.recorded

theorem Keeps.since {α : Type} {c middle : Cursor} {result : EStateM.Result Failure Cursor α}
    (stops : middle.stop = c.stop) (errors : c.recorded <:+ middle.recorded)
    (later : Keeps middle result) : Keeps c result := by
  cases result with
  | ok a after => exact ⟨later.1.trans stops, errors.trans later.2⟩
  | error failure after => exact ⟨later.1.trans stops, errors.trans later.2⟩

/-- What follows a round. -/
def Rule.Round.resume {σ α : Type} (again : σ → Rule α) : Rule.Round σ α → Rule α
  | .again next => again next
  | .finish result => pure result

/-- A rule that keeps the errors that have been recorded, and the end of the input. -/
class Grows {α : Type} (rule : Rule α) : Prop where
  keeps : ∀ c : Cursor, Keeps c (rule c)

namespace Grows

variable {α β σ : Type} {x y : Rule α} {f : α → Rule β}

instance pure (a : α) : Grows (Pure.pure a : Rule α) :=
  ⟨fun _ => ⟨rfl, List.suffix_rfl⟩⟩

instance bind [one : Grows x] [two : ∀ a, Grows (f a)] : Grows (x >>= f) := by
  constructor
  intro c
  have first := one.keeps c
  cases done : x c with
  | ok a middle =>
      rw [done] at first
      rw [Outcome.bind_of_ok done]
      exact .since first.1 first.2 ((two a).keeps middle)
  | error failure middle =>
      rw [done] at first
      rw [Outcome.bind_of_error done]
      exact first

theorem seq [Grows x] (two : ∀ a, Grows (f a)) : Grows (x >>= f) :=
  bind

instance fmap [Grows x] (g : α → β) : Grows (g <$> x) := by
  rw [← bind_pure_comp]
  infer_instance

instance ite {condition : Prop} [Decidable condition] [one : Grows x] [two : Grows y] :
    Grows (if condition then x else y) := by
  split
  · exact one
  · exact two

instance fail (fault : SyntaxFault) : Grows (Rule.fail (α := α) fault) :=
  ⟨fun _ => ⟨rfl, List.suffix_rfl⟩⟩

instance failAt (fault : SyntaxFault) (token : Token) :
    Grows (Rule.failAt (α := α) fault token) :=
  ⟨fun _ => ⟨rfl, List.suffix_rfl⟩⟩

instance exhausted : Grows (throw .exhausted : Rule α) :=
  ⟨fun _ => ⟨rfl, List.suffix_rfl⟩⟩

instance peek : Grows Rule.peek := ⟨fun _ => ⟨rfl, List.suffix_rfl⟩⟩

instance atEnd : Grows Rule.atEnd := ⟨fun _ => ⟨rfl, List.suffix_rfl⟩⟩

instance advance : Grows Rule.advance := ⟨fun _ => ⟨rfl, List.suffix_rfl⟩⟩

instance fresh : Grows Rule.fresh := ⟨fun _ => ⟨rfl, List.suffix_rfl⟩⟩

instance check (terminal : Terminal) : Grows (Rule.check terminal) :=
  ⟨fun _ => ⟨rfl, List.suffix_rfl⟩⟩

instance checkSecond (terminal : Terminal) : Grows (Rule.checkSecond terminal) :=
  ⟨fun _ => ⟨rfl, List.suffix_rfl⟩⟩

instance accept (terminal : Terminal) : Grows (Rule.accept terminal) := by
  unfold Rule.accept
  infer_instance

instance expect (terminal : Terminal) (fault : SyntaxFault) :
    Grows (Rule.expect terminal fault) := by
  unfold Rule.expect
  infer_instance

theorem iterate_keeps {round : σ → Rule (Rule.Round σ α)} (each : ∀ state, Grows (round state)) :
    ∀ (bound : Nat) (state : σ) (c : Cursor), Keeps c (Rule.iterate round bound state c)
  | 0, _, _ => ⟨rfl, List.suffix_rfl⟩
  | bound + 1, state, c => by
      have first := (each state).keeps c
      cases done : round state c with
      | error failure after =>
          rw [done] at first
          rw [Rule.iterate_of_error done]
          exact first
      | ok outcome after =>
          rw [done] at first
          cases outcome with
          | finish a =>
              rw [Rule.iterate_of_finish done]
              exact first
          | again next =>
              rw [Rule.iterate_of_again done]
              exact .since first.1 first.2 (iterate_keeps each bound next after)

instance iterate {round : σ → Rule (Rule.Round σ α)} [each : ∀ state, Grows (round state)]
    (bound : Nat) (state : σ) : Grows (Rule.iterate round bound state) :=
  ⟨iterate_keeps each bound state⟩

instance recover [one : Grows x] : Grows (Grammar.recover x) := by
  constructor
  intro c
  have first := one.keeps c
  cases done : x c with
  | ok a after =>
      rw [done] at first
      simp only [Grammar.recover, done]
      exact first
  | error failure after =>
      rw [done] at first
      cases failure with
      | exhausted =>
          simp only [Grammar.recover, done]
          exact first
      | error e =>
          simp only [Grammar.recover, done]
          split
          · exact first
          · have reaches := Cursor.Reaches.synchronize
              { after with recorded := e :: after.recorded }
            exact ⟨reaches.stop.trans first.1,
              first.2.trans ((List.suffix_cons _ _).trans reaches.recorded)⟩

end Grows

/-- A rule leads from one place to another, with a result and no error recorded. -/
def Accepts {α : Type} (stop : Token) (rule : Rule α) (start : Place) (a : α) (last : Place) : Prop :=
  rule (start.cursor stop) = .ok a (last.cursor stop)

theorem Place.cursor_inj (stop : Token) {p q : Place} (same : p.cursor stop = q.cursor stop) :
    p = q := by
  cases p
  cases q
  cases same
  rfl

namespace Accepts

open Derives

variable {α β σ : Type} {stop : Token} {p q r : Place} {x : Rule α} {f : α → Rule β} {a : α} {b : β}

theorem pure_iff {a' : α} : Accepts stop (pure a) p a' q ↔ a' = a ∧ q = p := by
  constructor
  · intro done
    injection done with results cursors
    exact ⟨results.symm, Place.cursor_inj stop cursors.symm⟩
  · rintro ⟨rfl, rfl⟩
    rfl

theorem bind_iff [one : Grows x] [two : ∀ a, Grows (f a)] :
    Accepts stop (x >>= f) p b r ↔ ∃ a q, Accepts stop x p a q ∧ Accepts stop (f a) q b r := by
  constructor
  · intro done
    obtain ⟨a, middle, first, later⟩ := Outcome.ok_of_bind done
    have before := one.keeps (p.cursor stop)
    have after := (two a).keeps middle
    rw [first] at before
    rw [later] at after
    have none : middle.recorded = [] := List.suffix_nil.mp after.2
    have place : middle = Place.cursor stop ⟨middle.pending, middle.nextId⟩ := by
      obtain ⟨pending, stop', nextId, recorded⟩ := middle
      cases none
      cases before.1
      rfl
    rw [place] at first later
    exact ⟨a, _, first, later⟩
  · rintro ⟨a, q, first, later⟩
    exact (Outcome.bind_of_ok first).trans later

theorem fmap_iff [Grows x] {g : α → β} :
    Accepts stop (g <$> x) p b q ↔ ∃ a, Accepts stop x p a q ∧ b = g a := by
  rw [← bind_pure_comp, bind_iff]
  constructor
  · rintro ⟨a, r, first, later⟩
    obtain ⟨rfl, rfl⟩ := pure_iff.mp later
    exact ⟨a, first, rfl⟩
  · rintro ⟨a, first, rfl⟩
    exact ⟨a, q, first, pure_iff.mpr ⟨rfl, rfl⟩⟩

theorem fail_iff {fault : SyntaxFault} : ¬Accepts stop (Rule.fail fault) p a q := nofun

theorem failAt_iff {fault : SyntaxFault} {token : Token} :
    ¬Accepts stop (Rule.failAt fault token) p a q := nofun

theorem fresh_iff {id : NodeId} : Accepts stop Rule.fresh p id q ↔ Numbers p id q := by
  constructor
  · intro done
    injection done with results cursors
    have places : q.cursor stop = Place.cursor stop ⟨p.tokens, p.nextId + 1⟩ := cursors.symm
    exact ⟨results.symm, Place.cursor_inj stop places⟩
  · rintro ⟨rfl, rfl⟩
    rfl

instance sees_decidable (place : Place) (terminal : Terminal) : Decidable (place.Sees terminal) :=
  inferInstanceAs (Decidable (_ = _))

theorem check_bind {terminal : Terminal} {f : Bool → Rule β} :
    (Rule.check terminal >>= f) (p.cursor stop) =
      f (decide (p.Sees terminal)) (p.cursor stop) := by
  refine Outcome.bind_of_ok ?_
  unfold Rule.check Place.Sees
  congr 1
  exact beq_eq_decide _ _

theorem check_iff {terminal : Terminal} {f : Bool → Rule β} :
    Accepts stop (Rule.check terminal >>= f) p b q ↔
      (p.Sees terminal ∧ Accepts stop (f true) p b q) ∨
        (¬p.Sees terminal ∧ Accepts stop (f false) p b q) := by
  unfold Accepts
  rw [check_bind]
  by_cases sees : p.Sees terminal
  · simp [sees]
  · simp [sees]

theorem sees_iff {terminal : Terminal} : p.Sees terminal ↔ ∃ token q, Passes terminal p token q := by
  constructor
  · intro sees
    obtain ⟨tokens, nextId⟩ := p
    cases tokens with
    | nil => cases sees
    | cons t rest => exact ⟨t, ⟨rest, nextId⟩, sees, rfl⟩
  · rintro ⟨token, q, found, rfl⟩
    exact found

theorem passes_unique {terminal : Terminal} {token other : Token} (one : Passes terminal p token q)
    (two : Passes terminal p other r) : other = token ∧ r = q := by
  obtain ⟨-, rfl⟩ := one
  obtain ⟨-, same⟩ := two
  cases q
  cases r
  cases same
  exact ⟨rfl, rfl⟩

theorem accept_bind_of_passes {terminal : Terminal} {token : Token} {f : Bool → Rule β}
    (passes : Passes terminal p token q) :
    (Rule.accept terminal >>= f) (p.cursor stop) = f true (q.cursor stop) := by
  unfold Rule.accept
  rw [bind_assoc, check_bind, decide_eq_true (sees_iff.mpr ⟨token, q, passes⟩)]
  obtain ⟨-, rfl⟩ := passes
  rfl

theorem accept_iff {terminal : Terminal} {f : Bool → Rule β} :
    Accepts stop (Rule.accept terminal >>= f) p b r ↔
      (∃ token q, Passes terminal p token q ∧ Accepts stop (f true) q b r) ∨
        (¬p.Sees terminal ∧ Accepts stop (f false) p b r) := by
  by_cases sees : p.Sees terminal
  · obtain ⟨token, q, passes⟩ := sees_iff.mp sees
    unfold Accepts
    rw [accept_bind_of_passes passes]
    constructor
    · intro done
      exact .inl ⟨token, q, passes, done⟩
    · rintro (⟨other, q', also, done⟩ | ⟨impossible, -⟩)
      · obtain ⟨-, rfl⟩ := passes_unique passes also
        exact done
      · exact absurd sees impossible
  · have not : (Rule.accept terminal >>= f) (p.cursor stop) = f false (p.cursor stop) := by
      unfold Rule.accept
      rw [bind_assoc, check_bind, decide_eq_false sees]
      rfl
    unfold Accepts
    rw [not]
    constructor
    · intro done
      exact .inr ⟨sees, done⟩
    · rintro (⟨token, q, passes, -⟩ | ⟨-, done⟩)
      · exact absurd (sees_iff.mpr ⟨token, q, passes⟩) sees
      · exact done

theorem expect_iff {terminal : Terminal} {fault : SyntaxFault} {token : Token} :
    Accepts stop (Rule.expect terminal fault) p token q ↔ Passes terminal p token q := by
  unfold Rule.expect
  rw [check_iff]
  constructor
  · rintro (⟨sees, passed⟩ | ⟨-, impossible⟩)
    · obtain ⟨t, q', passes⟩ := sees_iff.mp sees
      obtain ⟨-, rfl⟩ := id passes
      injection passed with results cursors
      cases results
      have places : q'.cursor stop = q.cursor stop := cursors
      cases Place.cursor_inj stop places
      exact passes
    · exact absurd impossible fail_iff
  · rintro ⟨found, rfl⟩
    exact .inl ⟨found, rfl⟩

theorem sees_of_expect {terminal : Terminal} {fault : SyntaxFault} {f : Token → Rule β}
    [∀ token, Grows (f token)] (done : Accepts stop (Rule.expect terminal fault >>= f) p b q) :
    p.Sees terminal := by
  obtain ⟨token, r, passed, -⟩ := bind_iff.mp done
  exact sees_iff.mpr ⟨token, r, expect_iff.mp passed⟩

theorem iterate_iff {round : σ → Rule (Rule.Round σ α)} [each : ∀ state, Grows (round state)]
    {bound : Nat} {state : σ} :
    Accepts stop (Rule.iterate round (bound + 1) state) p a r ↔
      (∃ next q, Accepts stop (round state) p (.again next) q ∧
        Accepts stop (Rule.iterate round bound next) q a r) ∨
      Accepts stop (round state) p (.finish a) r := by
  have unfolded : Rule.iterate round (bound + 1) state =
      round state >>= Rule.Round.resume (Rule.iterate round bound) := by
    funext c
    cases done : round state c with
    | error failure after => rw [Rule.iterate_of_error done, Outcome.bind_of_error done]
    | ok outcome after =>
        rw [Outcome.bind_of_ok done]
        cases outcome with
        | again next => exact Rule.iterate_of_again done
        | finish result => exact Rule.iterate_of_finish done
  have grows (outcome : Rule.Round σ α) :
      Grows (Rule.Round.resume (Rule.iterate round bound) outcome) := by
    cases outcome with
    | again next => exact Grows.iterate bound next
    | finish result => exact Grows.pure result
  rw [unfolded, bind_iff]
  constructor
  · rintro ⟨outcome, q, first, later⟩
    cases outcome with
    | again next => exact .inl ⟨next, q, first, later⟩
    | finish result =>
        obtain ⟨rfl, rfl⟩ := pure_iff.mp later
        exact .inr first
  · rintro (⟨next, q, first, later⟩ | first)
    · exact ⟨_, q, first, later⟩
    · exact ⟨_, r, first, pure_iff.mpr ⟨rfl, rfl⟩⟩

/-- Recovering from an error leaves the error behind. -/
theorem recover_iff {found : Option α} :
    Accepts stop (recover x) p found q ↔ ∃ a, found = some a ∧ Accepts stop x p a q := by
  unfold Accepts
  cases done : x (p.cursor stop) with
  | ok a after =>
      simp only [recover, done]
      constructor
      · intro same
        injection same with results cursors
        exact ⟨a, results.symm, congrArg _ cursors⟩
      · rintro ⟨a, rfl, same⟩
        cases same
        rfl
  | error failure after =>
      constructor
      · intro same
        cases failure with
        | exhausted =>
            simp only [recover, done] at same
            cases same
        | error e =>
            simp only [recover, done] at same
            split at same
            · cases same
            · injection same with _ cursors
              have kept := (Cursor.Reaches.synchronize
                { after with recorded := e :: after.recorded }).recorded
              rw [cursors] at kept
              cases List.suffix_nil.mp kept
      · rintro ⟨a, -, impossible⟩
        cases impossible

end Accepts
end Lox.Grammar
