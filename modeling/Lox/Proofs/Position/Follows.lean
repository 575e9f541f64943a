import Lox.Proofs.Layered.Operand
import Lox.Proofs.Position.Books

set_option autoImplicit false

/-! A walk follows a rule. From a place in the row at which its journal is sound, it comes to the same
result and to the same place as the rule, without a look outside the row, and its journal is sound
there. -/

namespace Lox.Grammar

/-- Nothing is changed about the row, and no token is taken back. -/
structure Walker.Leads (w after : Walker) : Prop where
  row : after.row = w.row
  onward : w.current ≤ after.current

theorem Walker.Leads.rfl {w : Walker} : w.Leads w :=
  ⟨Eq.refl _, Nat.le_refl _⟩

theorem Walker.Leads.trans {w middle last : Walker} (one : w.Leads middle) (two : middle.Leads last) :
    w.Leads last :=
  ⟨two.row.trans one.row, Nat.le_trans one.onward two.onward⟩

theorem Walker.Leads.note {w : Walker} {event : Event} : w.Leads (w.note event) :=
  ⟨Eq.refl _, Nat.le_refl _⟩

/-- Outcomes of a rule and of a walk that began at the same place. -/
inductive Matches {α : Type} (w : Walker) (good : α → Walker → Prop) :
    EStateM.Result Failure Cursor α → EStateM.Result Crash Walker α → Prop
  | ok {a : α} {after : Walker} (leads : w.Leads after) (holds : good a after) :
    Matches w good (.ok a after.cursor) (.ok a after)
  | error {e : SyntaxError} {after : Walker} (leads : w.Leads after) (stopped : after.Stopped e) :
    Matches w good (.error (.error e) after.cursor) (.error (.error e) after)
  | exhausted {c : Cursor} {after : Walker} :
    Matches w good (.error .exhausted c) (.error .exhausted after)

/-- A walk follows a rule from certain walkers on. -/
def Pursues {α : Type} (start : Walker → Prop) (good : α → Walker → Prop) (rule : Rule α)
    (walk : Walk α) : Prop :=
  ∀ w, start w → Matches w good (rule w.cursor) (walk w)

class Follows {α : Type} (rule : Rule α) (walk : Walk α) : Prop where
  pursues : Pursues Walker.Steady (fun _ => Walker.Steady) rule walk

section Sequence

variable {α β σ : Type} {rule : Rule α} {walk : Walk α} {w middle : Walker}
variable {start : Walker → Prop} {good : α → Walker → Prop}

theorem Matches.since {result : EStateM.Result Failure Cursor α} {outcome : EStateM.Result Crash Walker α}
    (before : w.Leads middle) (later : Matches middle good result outcome) :
    Matches w good result outcome := by
  cases later with
  | ok leads holds => exact .ok (before.trans leads) holds
  | error leads stopped => exact .error (before.trans leads) stopped
  | exhausted => exact .exhausted

theorem Matches.mono {fine : α → Walker → Prop} {result : EStateM.Result Failure Cursor α}
    {outcome : EStateM.Result Crash Walker α} (same : Matches w good result outcome)
    (after : ∀ a w, good a w → fine a w) : Matches w fine result outcome := by
  cases same with
  | ok leads holds => exact .ok leads (after _ _ holds)
  | error leads stopped => exact .error leads stopped
  | exhausted => exact .exhausted

theorem Pursues.mono {fine : α → Walker → Prop} (pursues : Pursues start good rule walk)
    (after : ∀ a w, good a w → fine a w) : Pursues start fine rule walk :=
  fun w begins => (pursues w begins).mono after

theorem Pursues.leads {a : α} {after : Walker} (pursues : Pursues start good rule walk)
    (begins : start w) (walked : walk w = .ok a after) : w.Leads after ∧ good a after := by
  have same := pursues w begins
  rw [walked] at same
  generalize rule w.cursor = result at same
  cases same with
  | ok leads holds => exact ⟨leads, holds⟩

theorem Pursues.pure {a : α} (holds : ∀ w, start w → good a w) :
    Pursues start good (Pure.pure a) (Pure.pure a) :=
  fun w begins => .ok .rfl (holds w begins)

theorem Matches.bind {f : α → Rule β} {g : α → Walk β} {fine : β → Walker → Prop}
    (first : Matches w good (rule w.cursor) (walk w))
    (two : ∀ a, Pursues (good a) fine (f a) (g a)) :
    Matches w fine ((rule >>= f) w.cursor) ((walk >>= g) w) := by
  generalize read : rule w.cursor = result at first
  generalize walked : walk w = outcome at first
  cases first with
  | ok leads holds =>
      rw [Outcome.bind_of_ok read, Outcome.bind_of_ok walked]
      exact .since leads (two _ _ holds)
  | error leads stopped =>
      rw [Outcome.bind_of_error read, Outcome.bind_of_error walked]
      exact .error leads stopped
  | exhausted =>
      rw [Outcome.bind_of_error read, Outcome.bind_of_error walked]
      exact .exhausted

theorem Pursues.bind {f : α → Rule β} {g : α → Walk β} {fine : β → Walker → Prop}
    (one : Pursues start good rule walk) (two : ∀ a, Pursues (good a) fine (f a) (g a)) :
    Pursues start fine (rule >>= f) (walk >>= g) :=
  fun w begins => (one w begins).bind two

/-- What follows a round of a walk. -/
def Walk.goOn (again : σ → Walk α) : Rule.Round σ α → Walk α
  | .again next => again next
  | .finish result => pure result

theorem Walk.iterate_succ (round : σ → Walk (Rule.Round σ α)) (bound : Nat) (state : σ) :
    Walk.iterate round (bound + 1) state =
      round state >>= Walk.goOn (Walk.iterate round bound) := by
  rw [Walk.iterate]
  congr 1
  funext outcome
  cases outcome <;> rfl

/-- A loop is followed if each round is; a round that goes on leaves a walker from which a round can be
begun. -/
theorem Pursues.iterate {round : σ → Rule (Rule.Round σ α)} {other : σ → Walk (Rule.Round σ α)}
    {good : Walker → Prop}
    (each : ∀ state, Pursues start
      (fun | .again _ => start | .finish _ => good) (round state) (other state)) :
    ∀ (bound : Nat) (state : σ), Pursues start (fun _ => good) (Rule.iterate round bound state)
      (Walk.iterate other bound state)
  | 0, _ => fun _ _ => .exhausted
  | bound + 1, state => by
      have unfolded : Rule.iterate round (bound + 1) state =
          (round state >>= fun
            | .again next => Rule.iterate round bound next
            | .finish result => Pure.pure result) := by
        funext c
        cases done : round state c with
        | error failure after => rw [Rule.iterate_of_error done, Outcome.bind_of_error done]
        | ok outcome after =>
            rw [Outcome.bind_of_ok done]
            cases outcome with
            | again next => exact Rule.iterate_of_again done
            | finish result => exact Rule.iterate_of_finish done
      rw [unfolded, Walk.iterate_succ]
      refine (each state).bind fun outcome => ?_
      cases outcome with
      | again next => exact Pursues.iterate each bound next
      | finish result => exact .pure fun _ holds => holds

end Sequence

namespace Follows

variable {α β σ : Type} {x y : Rule α} {u v : Walk α} {f : α → Rule β} {g : α → Walk β}

instance pure (a : α) : Follows (Pure.pure a : Rule α) (Pure.pure a : Walk α) :=
  ⟨.pure fun _ steady => steady⟩

instance bind [one : Follows x u] [two : ∀ a, Follows (f a) (g a)] : Follows (x >>= f) (u >>= g) :=
  ⟨one.pursues.bind fun a => (two a).pursues⟩

theorem seq [Follows x u] (two : ∀ a, Follows (f a) (g a)) : Follows (x >>= f) (u >>= g) :=
  bind

instance fmap [Follows x u] (h : α → β) : Follows (h <$> x) (h <$> u) := by
  rw [← bind_pure_comp, ← bind_pure_comp]
  infer_instance

instance ite {condition : Prop} [Decidable condition] [one : Follows x u] [two : Follows y v] :
    Follows (if condition then x else y) (if condition then u else v) := by
  split
  · exact one
  · exact two

instance exhausted : Follows (throw .exhausted : Rule α) (throw .exhausted : Walk α) :=
  ⟨fun _ _ => .exhausted⟩

instance iterate {round : σ → Rule (Rule.Round σ α)} {other : σ → Walk (Rule.Round σ α)}
    [each : ∀ state, Follows (round state) (other state)] (bound : Nat) (state : σ) :
    Follows (Rule.iterate round bound state) (Walk.iterate other bound state) where
  pursues := by
    refine Pursues.iterate (fun state => (each state).pursues.mono ?_) bound state
    rintro (_ | _) w steady <;> exact steady

end Follows

/-! ## Looking at tokens -/

theorem terminal?_of_isEnd {token : Token} (last : token.isEnd) : token.terminal? = none := by
  cases found : token.terminal? with
  | none => rfl
  | some terminal =>
      rw [Token.isEnd_of_terminal found] at last
      cases last

namespace Walker

variable {w : Walker}

/-- The walker behind the next token. -/
def passed (w : Walker) : Walker :=
  { w.note (.passed w.current) with current := w.current + 1 }

theorem Inside.found (inside : w.Inside) : w.row[w.current]? = some w.cursor.next := by
  rcases inside.view with ⟨-, none, found, -⟩ | ⟨token, -, found, -, some⟩
  · rw [found, Cursor.next, cursor, none]
    rfl
  · rw [found, Cursor.next, cursor, some]
    rfl

theorem Inside.isEnd_next (inside : w.Inside) : w.cursor.next.isEnd = w.pending.isEmpty := by
  rcases inside.view with ⟨-, none, -, last⟩ | ⟨token, -, -, other, some⟩
  · rw [Cursor.next, cursor, none]
    exact last
  · rw [Cursor.next, cursor, some]
    exact other

theorem Inside.terminalAt? (inside : w.Inside) :
    terminalAt? w.row w.current = w.pending.head?.bind Token.terminal? := by
  rcases inside.view with ⟨-, none, found, last⟩ | ⟨token, -, found, -, some⟩
  · rw [Grammar.terminalAt?, found, none]
    exact terminal?_of_isEnd last
  · rw [Grammar.terminalAt?, found, some]
    rfl

theorem Sound.note_raised {errors : List SyntaxError} (sound : w.Sound errors) (e : SyntaxError) :
    (w.note (.raised e)).Sound (e :: errors) where
  ended := sound.ended
  inside := sound.inside
  consumed := by simpa [note, Event.consumed] using sound.consumed
  raised := by simp [note, Event.error?, sound.raised]
  fair := List.forall_mem_cons.mpr ⟨trivial, sound.fair⟩

theorem Steady.raise (steady : w.Steady) (e : SyntaxError) : (w.note (.raised e)).Stopped e where
  toSound := steady.note_raised e
  settled := steady.settled

theorem Steady.passed (steady : w.Steady) (before : w.current < endOf w.row) : w.passed.Steady where
  ended := steady.ended
  inside := before
  consumed := by
    simp [Walker.passed, note, Event.consumed, steady.consumed, List.range_succ]
  raised := by simpa [Walker.passed, note, Event.error?] using steady.raised
  fair := List.forall_mem_cons.mpr ⟨trivial, steady.fair⟩
  settled := steady.settled

end Walker

namespace Walk

variable {w : Walker}

theorem peek_eq (inside : w.Inside) : peek w = .ok w.cursor.next w := by
  simp only [peek, tokenAt, inside.found]

theorem atEnd_eq (inside : w.Inside) : atEnd w = .ok w.pending.isEmpty w := by
  rw [atEnd, Outcome.bind_of_ok (peek_eq inside), inside.isEnd_next]
  rfl

theorem previous_eq (inside : w.Inside) : ∃ token, previous w = .ok token w := by
  have bound : w.current - 1 < w.row.length := by
    have := inside.ended
    have := inside.inside
    omega
  refine ⟨w.row[w.current - 1], ?_⟩
  simp only [previous, tokenAt, List.getElem?_eq_getElem bound]

theorem step_of_end (inside : w.Inside) (last : w.pending = []) :
    ∃ token, step w = .ok token w := by
  obtain ⟨token, found⟩ := previous_eq inside
  refine ⟨token, ?_⟩
  rw [step, Outcome.bind_of_ok (atEnd_eq inside), last]
  exact found

theorem step_of_token (inside : w.Inside) {token : Token} {rest : List Token}
    (more : w.pending = token :: rest) : step w = .ok token w.passed := by
  have found := inside.found
  rw [Cursor.next, Walker.cursor, more] at found
  rw [step, Outcome.bind_of_ok (atEnd_eq inside), more]
  have looked : previous w.passed = .ok token w.passed := by
    simp only [previous, tokenAt, Walker.passed, Walker.note, Nat.add_sub_cancel, found]
    rfl
  exact (Outcome.bind_of_ok rfl).trans looked

theorem check_eq (inside : w.Inside) (terminal : Terminal) :
    check terminal w = .ok (w.pending.head?.bind Token.terminal? == some terminal) w := by
  rw [check, Outcome.bind_of_ok (atEnd_eq inside)]
  cases more : w.pending with
  | nil => rfl
  | cons token rest =>
      have next : w.cursor.next = token := by rw [Cursor.next, Walker.cursor, more]; rfl
      exact (Outcome.bind_of_ok (peek_eq inside)).trans (by rw [next]; rfl)

theorem checkSecond_eq (inside : w.Inside) (terminal : Terminal) :
    checkSecond terminal w =
      .ok (w.pending.tail.head?.bind Token.terminal? == some terminal) w := by
  rw [checkSecond, Outcome.bind_of_ok (atEnd_eq inside)]
  rcases inside.view with ⟨-, none, -, -⟩ | ⟨token, before, -, -, more⟩
  · rw [none]
    rfl
  · have second : w.row[w.current + 1]?.bind Token.terminal? =
        w.pending.tail.head?.bind Token.terminal? := by
      rw [more, List.tail_cons, Walker.pending_moved]
      rcases Nat.lt_or_eq_of_le (Nat.succ_le_of_lt before) with further | last
      · rw [List.head?_drop, List.getElem?_take_of_lt further]
      · obtain ⟨stop, found, isEnd⟩ := isEnd_endOf inside.ended
        rw [List.drop_eq_nil_of_le (by rw [← last]; exact List.length_take_le _ _), ← last] at *
        rw [found]
        exact terminal?_of_isEnd isEnd
    rw [← second, more]
    rfl

end Walk

namespace Follows

variable {terminal : Terminal}

theorem of_ok {α : Type} {rule : Rule α} {walk : Walk α}
    (each : ∀ w : Walker, w.Steady → ∃ a after, rule w.cursor = .ok a after.cursor ∧
      walk w = .ok a after ∧ w.Leads after ∧ after.Steady) : Follows rule walk where
  pursues w steady := by
    obtain ⟨a, after, read, walked, leads, fine⟩ := each w steady
    rw [read, walked]
    exact .ok leads fine

instance peek : Follows Rule.peek Walk.peek :=
  of_ok fun w steady => ⟨_, w, rfl, Walk.peek_eq steady.toInside, .rfl, steady⟩

instance atEnd : Follows Rule.atEnd Walk.atEnd :=
  of_ok fun w steady => ⟨_, w, rfl, Walk.atEnd_eq steady.toInside, .rfl, steady⟩

instance check : Follows (Rule.check terminal) (Walk.check terminal) :=
  of_ok fun w steady => ⟨_, w, rfl, Walk.check_eq steady.toInside terminal, .rfl, steady⟩

instance checkSecond : Follows (Rule.checkSecond terminal) (Walk.checkSecond terminal) :=
  of_ok fun w steady => ⟨_, w, rfl, Walk.checkSecond_eq steady.toInside terminal, .rfl, steady⟩

instance fresh : Follows Rule.fresh Walk.fresh :=
  of_ok fun w steady => ⟨_, { w with nextId := w.nextId + 1 }, rfl, rfl, ⟨rfl, Nat.le_refl _⟩,
    { steady with }⟩

theorem cursor_passed {w : Walker} {token : Token} {rest : List Token}
    (more : w.pending = token :: rest) (sound : w.Steady) :
    w.passed.cursor = { w.cursor with pending := rest } ∧ w.current < endOf w.row := by
  rcases sound.view with ⟨-, none, -, -⟩ | ⟨first, before, -, -, found⟩
  · rw [none] at more
    cases more
  · rw [found] at more
    obtain ⟨rfl, rfl⟩ := List.cons.inj more
    exact ⟨rfl, before⟩

instance advance : Follows Rule.advance Walk.advance :=
  of_ok fun w steady => by
    cases more : w.pending with
    | nil =>
        obtain ⟨token, stays⟩ := Walk.step_of_end steady.toInside more
        refine ⟨(), w, ?_, Outcome.bind_of_ok stays, .rfl, steady⟩
        simp only [Rule.advance, Walker.cursor, more, List.tail_nil]
    | cons token rest =>
        obtain ⟨place, before⟩ := cursor_passed more steady
        refine ⟨(), w.passed, ?_, Outcome.bind_of_ok (Walk.step_of_token steady.toInside more),
          ⟨rfl, Nat.le_succ _⟩, steady.passed before⟩
        rw [place]
        simp only [Rule.advance, Walker.cursor, more, List.tail_cons]

instance raise (fault : SyntaxFault) (token : Token) {α : Type} :
    Follows (Rule.failAt (α := α) fault token) (Walk.failAt fault token) where
  pursues _ steady := .error .note (steady.raise ⟨fault, token⟩)

instance fail (fault : SyntaxFault) {α : Type} :
    Follows (Rule.fail (α := α) fault) (Walk.fail fault) where
  pursues w steady := by
    rw [Walk.fail, Outcome.bind_of_ok (Walk.peek_eq steady.toInside)]
    exact .error .note (steady.raise ⟨fault, w.cursor.next⟩)

instance accept : Follows (Rule.accept terminal) (Walk.accept terminal) := by
  unfold Rule.accept Walk.accept
  infer_instance

instance expect (fault : SyntaxFault) :
    Follows (Rule.expect terminal fault) (Walk.expect terminal fault) where
  pursues w steady := by
    have looked : Rule.check terminal w.cursor =
        .ok (w.pending.head?.bind Token.terminal? == some terminal) w.cursor := rfl
    rw [Rule.expect, Walk.expect, Outcome.bind_of_ok looked,
      Outcome.bind_of_ok (Walk.check_eq steady.toInside terminal)]
    split
    next found =>
      cases more : w.pending with
      | nil =>
          rw [more] at found
          cases found
      | cons token rest =>
          obtain ⟨place, before⟩ := cursor_passed more steady
          have passed : (do
              let token ← Rule.peek
              Rule.advance
              return token) w.cursor = .ok token w.passed.cursor := by
            change EStateM.Result.ok w.cursor.next { w.cursor with pending := w.pending.tail } = _
            rw [place, Cursor.next, Walker.cursor, more]
            rfl
          rw [passed, Walk.step_of_token steady.toInside more]
          exact .ok ⟨rfl, Nat.le_succ _⟩ (steady.passed before)
    next => exact (fail fault).pursues w steady

end Follows
end Lox.Grammar
