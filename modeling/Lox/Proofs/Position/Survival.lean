import Lox.Proofs.Layered.Agreement
import Lox.Proofs.Position.Agreement

set_option autoImplicit false

/-! Whatever the tokens are, reading comes to an end without a look outside the row. Unless an error
stops it, it ends at the first end of the input and has consumed every token before once; and every
declaration that is begun before the end gets on. -/

namespace Lox.Grammar

/-! ## The row that is read -/

theorem ended_closedRow (tokens : List Token) : endOf (closedRow tokens) < (closedRow tokens).length := by
  refine List.findIdx_lt_length_of_exists ?_
  unfold closedRow
  cases last : tokens.getLast? with
  | none => exact ⟨_, List.mem_append_right _ (.head _), rfl⟩
  | some token =>
      split
      · next ends => exact ⟨token, List.mem_of_getLast? last, ends⟩
      · exact ⟨_, List.mem_append_right _ (.head _), rfl⟩

/-- The tokens that count are the same, whether an end of input has to be added or not. -/
theorem takeWhile_closedRow (tokens : List Token) :
    (closedRow tokens).takeWhile (!·.isEnd) = tokens.takeWhile (!·.isEnd) := by
  unfold closedRow
  split
  · rfl
  · rw [List.takeWhile_append]
    split
    · next all =>
        rw [List.takeWhile_cons_of_neg (by simp [Token.isEnd, Token.atEnd]), List.append_nil,
          (List.takeWhile_prefix _).eq_of_length all]
    · rfl

theorem find_closedRow (tokens : List Token) :
    (closedRow tokens).find? (·.isEnd) =
      some ((tokens.find? (·.isEnd)).getD (Token.atEnd (tokens.getLast?.elim 0 (·.offset)))) := by
  unfold closedRow
  split
  · next ends =>
      cases last : tokens.getLast? with
      | none =>
          rw [last] at ends
          cases ends
      | some token =>
          rw [last] at ends
          cases found : tokens.find? (·.isEnd) with
          | none => exact absurd ends (List.find?_eq_none.mp found token (List.mem_of_getLast? last))
          | some first => rfl
  · rw [List.find?_append]
    cases tokens.find? (·.isEnd) <;> rfl

theorem ofTokens_eq_cursor (tokens : List Token) (firstId : NodeId) :
    Cursor.ofTokens tokens firstId = (Walker.new tokens firstId).cursor := by
  have before : (closedRow tokens).take (endOf (closedRow tokens)) = tokens.takeWhile (!·.isEnd) := by
    rw [← takeWhile_closedRow, List.takeWhile_eq_take_findIdx_not]
    simp only [Bool.not_not]
    rfl
  have stop : (closedRow tokens)[endOf (closedRow tokens)]? =
      some ((tokens.find? (·.isEnd)).getD (Token.atEnd (tokens.getLast?.elim 0 (·.offset)))) := by
    obtain ⟨isEnd, i, present, found, others⟩ :=
      List.find?_eq_some_iff_getElem.mp (find_closedRow tokens)
    have first : endOf (closedRow tokens) = i :=
      (List.findIdx_eq present).mpr ⟨by rw [found]; exact isEnd,
        fun j before => by simpa using others j before⟩
    rw [first, List.getElem?_eq_getElem present, found]
  unfold Cursor.ofTokens Walker.cursor Walker.pending
  rw [show (Walker.new tokens firstId).row = closedRow tokens from rfl, before, stop]
  rfl

theorem new_steady (tokens : List Token) (firstId : NodeId) : (Walker.new tokens firstId).Steady where
  ended := ended_closedRow tokens
  inside := Nat.zero_le _
  consumed := rfl
  raised := rfl
  fair := by
    intro event found
    cases found
  settled := rfl

theorem pending_new (tokens : List Token) (firstId : NodeId) :
    (Walker.new tokens firstId).pending.length = endOf (closedRow tokens) := by
  rw [Walker.pending, Walker.new, List.drop_zero,
    List.length_take_of_le (Nat.le_of_lt (ended_closedRow tokens))]

/-! ## Programs -/

/-- A walker at the end of the input, with nothing left to do. -/
structure Walker.Finished (w : Walker) : Prop extends w.Steady where
  last : w.current = endOf w.row

theorem walkRound_pursues (depth : Nat) (found : List Stmt) :
    Pursues Walker.Awaiting (Onward Walker.Finished) (programRound depth found)
      (walkRound depth found) := by
  intro w awaiting
  have ended : Rule.atEnd w.cursor = .ok w.pending.isEmpty w.cursor := rfl
  rw [programRound_eq, walkRound, Outcome.bind_of_ok ended,
    Outcome.bind_of_ok (Walk.atEnd_eq awaiting.toInside)]
  split
  next ends =>
    have steady := awaiting.steady (by
      rw [startsAt, awaiting.terminalAt?, List.isEmpty_iff.mp ends]
      rfl)
    rcases awaiting.view with ⟨last, -, -, -⟩ | ⟨token, -, -, -, more⟩
    · exact .ok .rfl ⟨steady, last⟩
    · rw [more] at ends
      cases ends
  next =>
    exact (rulesAt_followed depth).declaration.bind (onward_pursues Walker.Finished found) w awaiting

theorem walk_matches (tokens : List Token) (firstId : NodeId) :
    Matches (Walker.new tokens firstId) (fun _ => Walker.Finished)
      (program (Cursor.ofTokens tokens firstId)) (walk tokens firstId) := by
  have depths : (Cursor.ofTokens tokens firstId).depth = depthFor (endOf (closedRow tokens)) := by
    rw [ofTokens_eq_cursor]
    exact congrArg depthFor (pending_new tokens firstId)
  have pursues := declarations_pursue (walkRound_pursues (depthFor (endOf (closedRow tokens))))
    (depthFor (endOf (closedRow tokens)))
  have same := pursues _ (new_steady tokens firstId)
  rw [program, depths, ofTokens_eq_cursor]
  exact same

/-- Reading stops only for errors that are fatal. -/
theorem fatal_of_declaration {depth : Nat} {c after : Cursor} {e : SyntaxError}
    (failed : declaration depth c = .error (.error e) after) : e.fault.isFatal := by
  cases depth with
  | zero => cases failed
  | succ depth =>
      change recover _ c = _ at failed
      unfold recover at failed
      split at failed
      · cases failed
      · split at failed
        next fatal =>
          cases failed
          exact fatal
        next => cases failed
      · cases failed

theorem fatal_of_program {depth : Nat} {after : Cursor} {e : SyntaxError} :
    ∀ (bound : Nat) {found : List Stmt} {c : Cursor},
      Rule.iterate (programRound depth) bound found c = .error (.error e) after → e.fault.isFatal
  | 0, _, _, failed => nomatch failed
  | bound + 1, found, c, failed => by
      cases done : programRound depth found c with
      | ok outcome middle =>
          cases outcome with
          | again further =>
              rw [Rule.iterate_of_again done] at failed
              exact fatal_of_program bound failed
          | finish result =>
              rw [Rule.iterate_of_finish done] at failed
              cases failed
      | error failure middle =>
          rw [Rule.iterate_of_error done] at failed
          cases failed
          rw [programRound_eq] at done
          rcases Outcome.error_of_bind done with ended | ⟨ends, middle, -, later⟩
          · cases ended
          · split at later
            · cases later
            · rcases Outcome.error_of_bind later with failed | ⟨s, middle, -, onward⟩
              · exact fatal_of_declaration failed
              · cases s <;> cases onward

theorem program_not_spent (tokens : List Token) (firstId : NodeId) (after : Cursor) :
    program (Cursor.ofTokens tokens firstId) ≠ .error .exhausted after :=
  Reading.self.not_exhausted (program_abreast _) (Cursor.ofTokens_ends tokens firstId) rfl after

/-- What a walk has read, seen as what is read from a row of tokens. -/
def parseOf : EStateM.Result Crash Walker (List Stmt) → Parse
  | .ok statements w => ⟨statements, w.recorded.reverse, none, w.nextId⟩
  | .error (.error e) w => ⟨[], w.recorded.reverse, some e, w.nextId⟩
  | .error _ w => ⟨[], w.recorded.reverse, none, w.nextId⟩

/-- How a walk along a row ends: at the end of the input, or with a fatal error. -/
inductive Ends (row : List Token) : EStateM.Result Crash Walker (List Stmt) → Prop
  | finished {statements : List Stmt} {w : Walker} (same : w.row = row) (finished : w.Finished) :
    Ends row (.ok statements w)
  | stopped {e : SyntaxError} {w : Walker} (same : w.row = row) (fatal : e.fault.isFatal)
    (stopped : w.Stopped e) : Ends row (.error (.error e) w)

theorem walk_ends (tokens : List Token) (firstId : NodeId) :
    parse tokens firstId = parseOf (walk tokens firstId) ∧
      Ends (closedRow tokens) (walk tokens firstId) := by
  have same := walk_matches tokens firstId
  have endless := program_not_spent tokens firstId
  rw [parse, Cursor.parse]
  generalize read : program (Cursor.ofTokens tokens firstId) = result at same endless
  generalize walk tokens firstId = outcome at same
  cases same with
  | ok leads finished => exact ⟨rfl, .finished leads.row finished⟩
  | error leads stopped => exact ⟨rfl, .stopped leads.row (fatal_of_program _ read) stopped⟩
  | exhausted => exact absurd rfl (endless _)

/-- Whatever the tokens are, reading them by position comes to the same result as the rules, never looks
outside the row and is never cut off. The tokens it has consumed are those before its position, each
once and in order. If it ends without an error, it stands at the first end of the input; else the error
is fatal. And every declaration it came to the end of, with or without success, has passed a token
unless it was begun at the end. -/
theorem reading_survives (tokens : List Token) (firstId : NodeId) :
    ∃ w : Walker, w.row = closedRow tokens ∧ endsAt w.row (endOf w.row) ∧
      (∀ position < endOf w.row, endsAt w.row position = false) ∧
      parse tokens firstId = parseOf (walk tokens firstId) ∧
      ((∃ statements, walk tokens firstId = .ok statements w ∧ w.current = endOf w.row) ∨
        ∃ e, walk tokens firstId = .error (.error e) w ∧ e.fault.isFatal) ∧
      consumed w.journal = List.range w.current ∧
      ∀ start finish, .closed start finish ∈ w.journal → start < endOf w.row → start < finish := by
  obtain ⟨same, ends⟩ := walk_ends tokens firstId
  have ended := ended_closedRow tokens
  rw [same]
  generalize walk tokens firstId = outcome at ends
  cases ends with
  | @finished statements w row finished =>
      refine ⟨w, row, ?_, ?_, rfl, .inl ⟨statements, rfl, finished.last⟩, finished.consumed, ?_⟩
      · exact endsAt_endOf finished.ended
      · exact fun position before => not_endsAt_of_lt before
      · exact fun start finish happened => finished.fair _ happened
  | @stopped e w row fatal stopped =>
      refine ⟨w, row, ?_, ?_, rfl, .inr ⟨e, rfl, fatal⟩, stopped.consumed, ?_⟩
      · exact endsAt_endOf stopped.ended
      · exact fun position before => not_endsAt_of_lt before
      · exact fun start finish happened => stopped.fair _ happened

end Lox.Grammar
