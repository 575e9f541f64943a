import Lox.Proofs.Position.Follows

set_option autoImplicit false

/-! Recovery by position. After an error the walker leaves out the next token and goes on at the first
boundary behind it, which is where the rules go on; and a declaration that it comes to the end of has
passed a token. -/

namespace Lox.Grammar

theorem Cursor.synchronize_of_nil {c : Cursor} (none : c.pending = []) : c.synchronize = c := by
  simp only [synchronize, none]

theorem Cursor.synchronize_of_cons {c : Cursor} {token : Token} {rest : List Token}
    (more : c.pending = token :: rest) :
    c.synchronize = { c with pending := resume token rest } := by
  simp only [synchronize, more]

/-! ## Leaving tokens out -/

namespace Walk

variable {w : Walker}

theorem terminalAt?_of_found {row : List Token} {position : Nat} {token : Token}
    (found : row[position]? = some token) : terminalAt? row position = token.terminal? := by
  rw [terminalAt?, found]
  rfl

/-- One step of leaving out tokens, behind a token that was passed: it ends at a boundary, and else leaves
out one more. -/
theorem skipOn_succ (bound : Nat) {passed : Token} (inside : w.Inside)
    (before : w.row[w.current - 1]? = some passed) :
    (Boundary w.row w.current ∧ skipOn (bound + 1) w = .ok () w ∧ resume passed w.pending = w.pending) ∨
    ∃ token, ¬ Boundary w.row w.current ∧ w.current < endOf w.row ∧
      w.row[w.current]? = some token ∧ skipOn (bound + 1) w = skipOn bound (w.moved (w.current + 1)) ∧
        resume passed w.pending = resume token (w.moved (w.current + 1)).pending := by
  have behind : terminalAt? w.row (w.current - 1) = passed.terminal? := terminalAt?_of_found before
  have looked : previous w = .ok passed w := by
    simp only [previous, tokenAt, before]
  rw [skipOn, Outcome.bind_of_ok (atEnd_eq inside)]
  rcases inside.view with ⟨last, none, -, -⟩ | ⟨token, first, found, other, more⟩
  · refine .inl ⟨.inl ?_, ?_, ?_⟩
    · rw [last]
      exact endsAt_endOf inside.ended
    · rw [none]
      rfl
    · rw [none]
      rfl
  · rw [if_neg (by rw [more]; exact Bool.false_ne_true), Outcome.bind_of_ok looked, more, resume]
    by_cases semicolon : passed.terminal? == some (.symbol .semicolon)
    · refine .inl ⟨.inr (.inr ?_), ?_, ?_⟩
      · rw [semicolonAt, behind]
        exact semicolon
      · rw [if_pos semicolon]
        rfl
      · rw [if_pos (by rw [semicolon, Bool.true_or])]
    · have next : w.cursor.next = token := by rw [Cursor.next, Walker.cursor, more]; rfl
      have here : terminalAt? w.row w.current = token.terminal? := terminalAt?_of_found found
      rw [if_neg semicolon, Outcome.bind_of_ok (peek_eq inside), next]
      by_cases starts : token.terminal?.any beginsStatement
      · refine .inl ⟨.inr (.inl ?_), ?_, ?_⟩
        · rw [startsAt, here]
          exact starts
        · rw [if_pos starts]
          rfl
        · rw [if_pos (by rw [starts, Bool.or_true])]
      · refine .inr ⟨token, ?_, first, found, ?_, ?_⟩
        · rintro (ends | begins | after)
          · rw [not_endsAt_of_lt first] at ends
            cases ends
          · rw [startsAt, here] at begins
            exact starts begins
          · rw [semicolonAt, behind] at after
            exact semicolon after
        · rw [if_neg starts]
          rfl
        · rw [if_neg (by simp [semicolon, starts])]

/-- What leaving out tokens comes to, behind a token that was passed: the first boundary from here. -/
theorem skipOn_eq (bound : Nat) {passed : Token} (inside : w.Inside)
    (enough : endOf w.row < w.current + bound) (before : w.row[w.current - 1]? = some passed) :
    ∃ position, skipOn bound w = .ok () (w.moved position) ∧ w.current ≤ position ∧
      position ≤ endOf w.row ∧ (w.moved position).pending = resume passed w.pending ∧
      Boundary w.row position ∧ ∀ j, w.current ≤ j → j < position → ¬ Boundary w.row j := by
  induction bound generalizing w passed with
  | zero => exact absurd inside.inside (Nat.not_le_of_lt enough)
  | succ bound ih =>
      rcases skipOn_succ bound inside before with
        ⟨boundary, stops, same⟩ | ⟨token, within, first, found, goesOn, same⟩
      · exact ⟨w.current, stops, Nat.le_refl _, inside.inside, same.symm, boundary,
          fun j low high => absurd low (Nat.not_le_of_lt high)⟩
      · have further : endOf w.row < w.current + 1 + bound := by omega
        obtain ⟨position, skipped, up, upTo, place, boundary, least⟩ :=
          ih (w := w.moved (w.current + 1)) ⟨inside.ended, first⟩ further found
        refine ⟨position, goesOn.trans skipped, Nat.le_of_succ_le up, upTo, place.trans same.symm,
          boundary, fun j low high => ?_⟩
        rcases Nat.eq_or_lt_of_le low with rfl | low
        · exact within
        · exact least j low high

/-- Reading goes on where the rules go on, which is where it should. -/
theorem synchronize_eq (inside : w.Inside) :
    ∃ position, synchronize w = .ok () (w.moved position) ∧ w.current ≤ position ∧
      position ≤ endOf w.row ∧ (w.moved position).cursor = w.cursor.synchronize ∧
      Resumes w.row w.current position := by
  rw [synchronize, Outcome.bind_of_ok (atEnd_eq inside)]
  rcases inside.view with ⟨last, none, -, -⟩ | ⟨token, first, found, other, more⟩
  · refine ⟨w.current, ?_, Nat.le_refl _, inside.inside, ?_, ?_⟩
    · rw [none]
      rfl
    · exact (Cursor.synchronize_of_nil none).symm
    · rw [Resumes, if_pos (by rw [last]; exact endsAt_endOf inside.ended)]
  · obtain ⟨position, skipped, up, upTo, place, boundary, least⟩ :=
      skipOn_eq w.row.length (w := w.moved (w.current + 1)) ⟨inside.ended, first⟩
        (by have := inside.ended; simp only [Walker.moved]; omega) found
    refine ⟨position, ?_, Nat.le_of_succ_le up, upTo, ?_, ?_⟩
    · rw [if_neg (by rw [more]; exact Bool.false_ne_true)]
      exact skipped
    · rw [Cursor.synchronize_of_cons more, ← place]
      rfl
    · rw [Resumes, if_neg (by rw [not_endsAt_of_lt first]; exact Bool.false_ne_true)]
      refine ⟨⟨up, boundary⟩, fun j ⟨low, further⟩ => ?_⟩
      exact Nat.le_of_not_lt fun high => least j low high further

end Walk

/-! ## Declarations -/

/-- A walk along a rule that has passed a token if it comes to a result, unless it began at the end. -/
class Strides {α : Type} (rule : Rule α) (walk : Walk α) : Prop where
  strides : ∀ {w after : Walker} {a : α}, w.Steady → w.current < endOf w.row →
    walk w = .ok a after → w.current < after.current

theorem Resumes.strides {row : List Token} {caught resumed : Nat} (resumes : Resumes row caught resumed)
    (before : caught < endOf row) : caught < resumed := by
  rw [Resumes, if_neg (by rw [not_endsAt_of_lt before]; exact Bool.false_ne_true)] at resumes
  exact resumes.1.1

namespace Walker

variable {w after : Walker}

theorem Awaiting.opened (awaiting : w.Awaiting) : (w.note (.opened w.current)).Steady where
  ended := awaiting.ended
  inside := awaiting.inside
  consumed := by simpa [note, Event.consumed] using awaiting.consumed
  raised := by simpa [note, Event.error?] using awaiting.raised
  fair := List.forall_mem_cons.mpr ⟨trivial, awaiting.fair⟩
  settled := by
    refine List.filter_eq_nil_iff.mpr fun position found => ?_
    simp [awaiting.next position found]

theorem Awaiting.closed (awaiting : w.Awaiting) {start : Nat}
    (strides : start < endOf w.row → start < w.current) :
    (w.note (.closed start w.current)).Awaiting where
  ended := awaiting.ended
  inside := awaiting.inside
  consumed := by simpa [note, Event.consumed] using awaiting.consumed
  raised := by simpa [note, Event.error?] using awaiting.raised
  fair := List.forall_mem_cons.mpr ⟨strides, awaiting.fair⟩
  next := awaiting.next

/-- The walker after the recovery from an error. -/
def recovered (w : Walker) (e : SyntaxError) (resumed : Nat) : Walker :=
  { w with recorded := e :: w.recorded, current := resumed }.note (.recovered e w.current resumed)

theorem Stopped.recovered {e : SyntaxError} (stopped : w.Stopped e) {resumed : Nat}
    (up : w.current ≤ resumed) (upTo : resumed ≤ endOf w.row)
    (resumes : Resumes w.row w.current resumed) : (w.recovered e resumed).Awaiting where
  ended := stopped.ended
  inside := upTo
  consumed := by
    simp only [Walker.recovered, note, consumed_cons, stopped.consumed, Event.consumed]
    have whole := List.range'_append_1 (s := 0) (m := w.current) (n := resumed - w.current)
    rw [Nat.zero_add, Nat.add_sub_cancel' up] at whole
    rw [List.range_eq_range', List.range_eq_range']
    exact whole
  raised := by simpa [Walker.recovered, note, Event.error?] using stopped.raised
  fair := List.forall_mem_cons.mpr ⟨resumes, stopped.fair⟩
  next position found := by
    change position ∈ awaited w.row (.recovered e w.current resumed :: w.journal) at found
    rw [awaited, stopped.settled] at found
    split at found
    · exact List.mem_singleton.mp found
    · cases found

end Walker

/-- A declaration that recovers from its errors is followed, also from a token that is awaited. -/
theorem recover_pursues {α : Type} {rule : Rule α} {walk : Walk α} (follows : Follows rule walk)
    (one : Strides rule walk) :
    Pursues Walker.Awaiting (fun _ => Walker.Awaiting) (recover rule) (Walk.recover walk) := by
  intro w awaiting
  have steady := awaiting.opened
  have within := follows.pursues _ steady
  have same : (w.note (.opened w.current)).cursor = w.cursor := rfl
  rw [same] at within
  generalize read : rule w.cursor = result at within
  generalize walked : walk (w.note (.opened w.current)) = outcome at within
  simp only [recover, Walk.recover, read, walked]
  cases within with
  | @ok a after leads holds =>
      have whole : w.Leads (after.note (.closed w.current after.current)) :=
        ⟨leads.row, leads.onward⟩
      refine Matches.ok whole (holds.awaiting.closed fun before => ?_)
      rw [leads.row] at before
      have strode := one.strides steady before walked
      exact strode
  | @error e after leads stopped =>
      simp only
      split
      · exact .error ⟨leads.row, leads.onward⟩ stopped
      · obtain ⟨resumed, synchronized, up, upTo, place, resumes⟩ :=
          Walk.synchronize_eq (w := { after with recorded := e :: after.recorded })
            ⟨stopped.ended, stopped.inside⟩
        have onward : w.current ≤ after.current := leads.onward
        have whole : w.Leads ((after.recovered e resumed).note (.closed w.current resumed)) :=
          ⟨leads.row, Nat.le_trans onward up⟩
        rw [synchronized]
        have caught : { after.cursor with recorded := e :: after.cursor.recorded }.synchronize =
            ((after.recovered e resumed).note (.closed w.current resumed)).cursor := place.symm
        rw [caught]
        refine .ok whole ((stopped.recovered up upTo resumes).closed fun before => ?_)
        rcases Nat.lt_or_eq_of_le onward with less | here
        · exact Nat.lt_of_lt_of_le less up
        · rw [here] at before ⊢
          exact resumes.strides before
  | exhausted => exact .exhausted

end Lox.Grammar
