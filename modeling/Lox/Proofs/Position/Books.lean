import Lox.Proofs.Position.Walk
import Mathlib.Order.Bounds.Defs

set_option autoImplicit false

/-! What a journal should say. The tokens that were passed or left out are those before the position of
the walker, each once and in order; every error that was met and caught is recorded; every declaration
that was not begun at the end has passed a token when it ends; and reading goes on after an error where
it should, with the declaration that begins there. -/

namespace Lox.Grammar

/-! ## What a journal tells -/

/-- The positions of the tokens that are consumed in an event. -/
def Event.consumed : Event → List Nat
  | .passed position => [position]
  | .recovered _ caught resumed => List.range' caught (resumed - caught)
  | _ => []

def Event.error? : Event → Option SyntaxError
  | .raised e => some e
  | _ => none

/-- The positions of the tokens that were consumed, in the order of time. -/
def consumed (journal : List Event) : List Nat :=
  journal.reverse.flatMap Event.consumed

/-- The errors that were met, latest first. -/
def raised (journal : List Event) : List SyntaxError :=
  journal.filterMap Event.error?

@[simp]
theorem consumed_cons (event : Event) (journal : List Event) :
    consumed (event :: journal) = consumed journal ++ event.consumed := by
  simp [consumed]

@[simp]
theorem raised_cons (event : Event) (journal : List Event) :
    raised (event :: journal) = event.error?.toList ++ raised journal := by
  cases event <;> rfl

/-! ## Where reading goes on -/

def terminalAt? (row : List Token) (position : Nat) : Option Terminal :=
  row[position]?.bind Token.terminal?

def endsAt (row : List Token) (position : Nat) : Bool :=
  row[position]?.any (·.isEnd)

/-- Whether a token is one of the keywords that begin statements. -/
def startsAt (row : List Token) (position : Nat) : Bool :=
  (terminalAt? row position).any beginsStatement

def semicolonAt (row : List Token) (position : Nat) : Bool :=
  terminalAt? row position == some (.symbol .semicolon)

/-- Reading can go on at the end, at a keyword that begins a statement and after a semicolon. -/
def Boundary (row : List Token) (position : Nat) : Prop :=
  endsAt row position ∨ startsAt row position ∨ semicolonAt row (position - 1)

/-- Where reading goes on after an error was caught at a position: there, if this is the end, and else
at the first boundary behind it. -/
def Resumes (row : List Token) (caught resumed : Nat) : Prop :=
  if endsAt row caught then resumed = caught
  else IsLeast {position | caught < position ∧ Boundary row position} resumed

/-- The keywords at which reading is to go on after an error and has not yet done so. -/
def awaited (row : List Token) : List Event → List Nat
  | [] => []
  | .opened position :: earlier => (awaited row earlier).filter (· ≠ position)
  | .recovered _ _ resumed :: earlier =>
    if startsAt row resumed then resumed :: awaited row earlier else awaited row earlier
  | _ :: earlier => awaited row earlier

theorem startsAt_of_awaited {row : List Token} {journal : List Event} {position : Nat}
    (found : position ∈ awaited row journal) : startsAt row position := by
  fun_induction awaited row journal with
  | case1 => cases found
  | case2 opened earlier ih => exact ih (List.mem_filter.mp found).1
  | case3 e caught resumed earlier starts ih =>
      rcases List.mem_cons.mp found with rfl | before
      · exact starts
      · exact ih before
  | case4 e caught resumed earlier other ih => exact ih found
  | case5 event earlier plain other ih => exact ih found

/-- A keyword at which reading was to go on, and which is not awaited any more, is where a declaration
was begun since. -/
theorem opened_of_not_awaited {row : List Token} {e : SyntaxError} {caught resumed : Nat}
    {later earlier : List Event} (starts : startsAt row resumed)
    (missing : resumed ∉ awaited row (later ++ .recovered e caught resumed :: earlier)) :
    .opened resumed ∈ later := by
  induction later with
  | nil =>
      rw [List.nil_append, awaited, if_pos starts] at missing
      exact absurd (.head _) missing
  | cons event later ih =>
      rw [List.cons_append] at missing
      cases event with
      | opened position =>
          by_cases same : resumed = position
          · rw [same]
            exact .head _
          · refine .tail _ (ih fun found => missing ?_)
            exact List.mem_filter.mpr ⟨found, by simpa using same⟩
      | recovered other start finish =>
          refine .tail _ (ih fun found => missing ?_)
          rw [awaited]
          split
          · exact .tail _ found
          · exact found
      | passed position => exact .tail _ (ih missing)
      | raised other => exact .tail _ (ih missing)
      | closed start finish => exact .tail _ (ih missing)

section Row

variable {row : List Token}

theorem isEnd_endOf (ended : endOf row < row.length) :
    ∃ token, row[endOf row]? = some token ∧ token.isEnd := by
  refine ⟨row[endOf row], List.getElem?_eq_getElem ended, ?_⟩
  exact List.findIdx_getElem (w := ended)

theorem not_isEnd_of_lt {position : Nat} {token : Token} (found : row[position]? = some token)
    (before : position < endOf row) : token.isEnd = false := by
  obtain ⟨bound, rfl⟩ := List.getElem?_eq_some_iff.mp found
  exact eq_false_of_ne_true (by simpa using List.not_of_lt_findIdx before)

theorem endsAt_endOf (ended : endOf row < row.length) : endsAt row (endOf row) := by
  obtain ⟨token, found, last⟩ := isEnd_endOf ended
  simp [endsAt, found, last]

theorem not_endsAt_of_lt {position : Nat} (before : position < endOf row) :
    endsAt row position = false := by
  cases found : row[position]? with
  | none => simp [endsAt, found]
  | some token => simp [endsAt, found, not_isEnd_of_lt found before]

end Row

/-! ## Sound walkers -/

/-- What is right about one event: reading goes on where it should, and a declaration that was not begun
at the end has passed a token. -/
def Event.Fair (row : List Token) : Event → Prop
  | .recovered _ caught resumed => Resumes row caught resumed
  | .closed start finish => start < endOf row → start < finish
  | _ => True

namespace Walker

/-- An end of input stands in the row, at the position of a walker or behind it. -/
structure Inside (w : Walker) : Prop where
  ended : endOf w.row < w.row.length
  inside : w.current ≤ endOf w.row

/-- The tokens before the position of a walker were consumed once and in order, and the errors that were
met are the given ones. -/
structure Sound (w : Walker) (errors : List SyntaxError) : Prop extends w.Inside where
  consumed : consumed w.journal = List.range w.current
  raised : raised w.journal = errors
  fair : ∀ event ∈ w.journal, event.Fair w.row

/-- Every error that was met has been recorded, and no keyword is awaited. -/
structure Steady (w : Walker) : Prop extends w.Sound w.recorded where
  settled : awaited w.row w.journal = []

/-- Like a steady walker, but the next token may be awaited. -/
structure Awaiting (w : Walker) : Prop extends w.Sound w.recorded where
  next : ∀ position ∈ awaited w.row w.journal, position = w.current

/-- Every error has been recorded but the one that is on its way out. -/
structure Stopped (w : Walker) (e : SyntaxError) : Prop extends w.Sound (e :: w.recorded) where
  settled : awaited w.row w.journal = []

variable {w : Walker}

theorem Steady.awaiting (steady : w.Steady) : w.Awaiting where
  toSound := steady.toSound
  next position found := by
    rw [steady.settled] at found
    cases found

/-- A walker that awaits the next token stands at a keyword, or else awaits nothing. -/
theorem Awaiting.steady (awaiting : w.Awaiting) (other : startsAt w.row w.current = false) :
    w.Steady where
  toSound := awaiting.toSound
  settled := by
    refine List.eq_nil_iff_forall_not_mem.mpr fun position found => ?_
    have starts := startsAt_of_awaited found
    rw [awaiting.next position found, other] at starts
    cases starts

/-! ## The cursor of a walker -/

/-- The tokens that a walker has before it, up to the end of the input. -/
def pending (w : Walker) : List Token :=
  (w.row.take (endOf w.row)).drop w.current

/-- The place at which a walker stands, as a cursor. -/
def cursor (w : Walker) : Cursor :=
  ⟨w.pending, w.row[endOf w.row]?.getD default, w.nextId, w.recorded⟩

/-- A walker at another position of its row, with the same journal. -/
def moved (w : Walker) (position : Nat) : Walker :=
  { w with current := position }

theorem pending_moved (position : Nat) :
    (w.moved position).pending = (w.row.take (endOf w.row)).drop position :=
  rfl

/-- A walker stands at the end of the input, or at a token of the row. -/
theorem Inside.view (inside : w.Inside) :
    (w.current = endOf w.row ∧ w.pending = [] ∧ w.row[w.current]? = some w.cursor.stop ∧
      w.cursor.stop.isEnd) ∨
    ∃ token, w.current < endOf w.row ∧ w.row[w.current]? = some token ∧ token.isEnd = false ∧
      w.pending = token :: (w.moved (w.current + 1)).pending := by
  rcases Nat.lt_or_eq_of_le inside.inside with before | last
  · have ended : w.current < w.row.length := Nat.lt_trans before inside.ended
    refine .inr ⟨w.row[w.current], before,
      List.getElem?_eq_getElem _, not_isEnd_of_lt (List.getElem?_eq_getElem _) before, ?_⟩
    have present : w.current < (w.row.take (endOf w.row)).length := by
      rw [List.length_take_of_le (Nat.le_of_lt inside.ended)]
      exact before
    rw [pending, List.drop_eq_getElem_cons present, List.getElem_take]
    rfl
  · obtain ⟨token, found, isEnd⟩ := isEnd_endOf inside.ended
    refine .inl ⟨last, ?_, ?_, ?_⟩
    · rw [pending, last, List.drop_eq_nil_of_le (List.length_take_le _ _)]
    · rw [last, cursor, found]
      rfl
    · rw [cursor, found]
      exact isEnd

end Walker
end Lox.Grammar
