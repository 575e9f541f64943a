import Lox.Token.Scan
import Mathlib.Data.List.TakeWhile
import Mathlib.Tactic.Conv

set_option autoImplicit false

/-! The piece at the front of a text that goes on after the end of a line. It stays what it is, because no
piece goes on over the end of a line but a comment, up to a newline, and a string that is open. -/

namespace Lox.Token

theorem takeWhile_cut {p : Char → Bool} {d : Char} (stops : p d = false) (text more : List Char) :
    (text ++ d :: more).takeWhile p = text.takeWhile p := by
  induction text with
  | nil => simp [stops]
  | cons c rest ih => simp only [List.cons_append, List.takeWhile_cons, ih]

theorem dropWhile_cut {p : Char → Bool} {d : Char} (stops : p d = false) (text more : List Char) :
    (text ++ d :: more).dropWhile p = text.dropWhile p ++ d :: more := by
  induction text with
  | nil => simp [stops]
  | cons c rest ih =>
      simp only [List.cons_append, List.dropWhile_cons, ih]
      split <;> rfl

/-- A line can end with it: it is a blank and goes on with nothing that stands before it. -/
structure EndsLine (d : Char) : Prop where
  name : isNamePart d = false
  digit : d.isDigit = false
  quote : d ≠ '"'
  dot : d ≠ '.'
  slash : d ≠ '/'
  star : d ≠ '*'
  equal : d ≠ '='
  greater : d ≠ '>'

theorem newline_endsLine : EndsLine '\n' := by
  constructor <;> decide

theorem return_endsLine : EndsLine '\r' := by
  constructor <;> decide

theorem other_head {x d : Char} {after : List Char} (more : List Char)
    (other : ∀ rest, after = x :: rest → False) (different : d ≠ x) :
    ∀ rest, after ++ d :: more = x :: rest → False := by
  intro rest same
  cases after with
  | nil => exact different (List.cons.inj same).1
  | cons y front => exact other front (congrArg (· :: front) (List.cons.inj same).1)

theorem readSymbol?_cut {d : Char} (ends : EndsLine d) (c : Char) (after more : List Char) :
    readSymbol? (c :: (after ++ d :: more)) =
      (readSymbol? (c :: after)).map fun found => (found.1, found.2 ++ d :: more) := by
  have star := ends.star
  have equal := ends.equal
  conv_rhs => unfold readSymbol?
  generalize text : c :: after = whole
  split
  case h_14 | h_16 | h_18 | h_20 =>
    next alone =>
      cases text
      rw [readSymbol?]
      · rfl
      · exact other_head more alone ‹_›
  case h_23 =>
    next arrow alone =>
      cases text
      rw [readSymbol?]
      · rfl
      · exact other_head more arrow ends.greater
      · exact other_head more alone ends.equal
  case h_24 =>
    unfold readSymbol?
    split
    case h_24 => rfl
    all_goals
      next same =>
        have head := (List.cons.inj same).1
        subst text head
        exfalso
        solve_by_elim
  all_goals
    cases text
    rfl

/-- The piece at the front of a text stays what it is if a line ends after the text. -/
def Munch.before (m : Munch) (more : List Char) : Munch :=
  { m with rest := m.rest ++ more }

theorem munchFraction_cut {d : Char} (ends : EndsLine d) (whole rest more : List Char) :
    munchFraction whole (rest ++ d :: more) = (munchFraction whole rest).before (d :: more) := by
  unfold munchFraction Munch.before
  cases rest with
  | nil => simp [ends.dot]
  | cons x after =>
    by_cases point : x = '.'
    · subst point
      cases after with
      | nil => simp [ends.digit]
      | cons y after =>
        simp only [List.cons_append]
        split
        · rw [← List.cons_append, takeWhile_cut ends.digit, dropWhile_cut ends.digit]
        · rfl
    · simp [point]

theorem dropWhile_newline {text : List Char} :
    text.dropWhile (· != '\n') = [] ↔ '\n' ∉ text := by
  rw [List.dropWhile_eq_nil_iff]
  constructor
  · intro all member
    exact absurd (all '\n' member) (by decide)
  · intro none c member
    rw [bne_iff_ne]
    rintro rfl
    exact none member

theorem cut_of_dropWhile {p : Char → Bool} {text : List Char} (stops : text.dropWhile p ≠ [])
    (more : List Char) : (text ++ more).takeWhile p = text.takeWhile p ∧
      (text ++ more).dropWhile p = text.dropWhile p ++ more := by
  have shorter : (text.takeWhile p).length ≠ text.length := by
    have whole := congrArg List.length (List.takeWhile_append_dropWhile (p := p) (l := text))
    have some := List.length_pos_iff.mpr stops
    rw [List.length_append] at whole
    omega
  rw [List.takeWhile_append, List.dropWhile_append, if_neg shorter,
    if_neg (by simpa using stops)]
  exact ⟨rfl, rfl⟩

theorem munchString_cut {d : Char} {after : List Char}
    (closed : (munchString after).piece ≠ .fault .unterminated) (more : List Char) :
    munchString (after ++ d :: more) = (munchString after).before (d :: more) := by
  unfold munchString at closed ⊢
  cases found : after.dropWhile (· != '"') with
  | nil =>
    rw [found] at closed
    exact absurd rfl closed
  | cons quote rest =>
    obtain ⟨taken, left⟩ := cut_of_dropWhile (found ▸ List.cons_ne_nil _ _) (d :: more)
    rw [taken, left, found]
    rfl

theorem munchString_open {d : Char} (ends : EndsLine d) {after : List Char}
    (isOpen : (munchString after).piece = .fault .unterminated) :
    (munchString (after ++ [d])).piece = .fault .unterminated := by
  unfold munchString at isOpen ⊢
  have none : after.dropWhile (· != '"') = [] := by
    split at isOpen
    · assumption
    · cases isOpen
  have still : (after ++ [d]).dropWhile (· != '"') = [] := by
    rw [List.dropWhile_append, none]
    simp [ends.quote]
  rw [still]

/-- The front of a text that goes on after a line has ended. -/
theorem munch_cut {d : Char} (ends : EndsLine d) {c : Char} {after : List Char}
    (closed : (munch c after).piece ≠ .fault .unterminated)
    (comment : c = '/' → after.head? = some '/' → d = '\n' ∨ '\n' ∈ after) (more : List Char) :
    munch c (after ++ d :: more) = (munch c after).before (d :: more) := by
  have head : (after ++ d :: more).head? = some '/' ↔ after.head? = some '/' := by
    cases after with
    | nil => simp [ends.slash]
    | cons x rest => rfl
  unfold munch at closed ⊢
  simp only [head]
  split
  · rfl
  split
  · next blank quote =>
    rw [if_neg blank, if_pos quote] at closed
    exact munchString_cut closed more
  split
  · rw [← List.cons_append, munchNumber, takeWhile_cut ends.digit, dropWhile_cut ends.digit]
    exact munchFraction_cut ends _ _ more
  split
  · rw [← List.cons_append, munchWord, takeWhile_cut ends.name, dropWhile_cut ends.name]
    rfl
  split
  · next slashes =>
    unfold munchComment
    rcases comment slashes.1 slashes.2 with rfl | member
    · rw [takeWhile_cut rfl, dropWhile_cut rfl]
      rfl
    · obtain ⟨taken, left⟩ := cut_of_dropWhile (mt dropWhile_newline.mp (not_not_intro member))
        (d :: more)
      rw [taken, left]
      rfl
  · rw [readSymbol?_cut ends]
    cases readSymbol? (c :: after) <;> rfl

/-- A string that is not closed is not closed either if the end of a line follows. -/
theorem munch_open {d : Char} (ends : EndsLine d) {c : Char} {after : List Char}
    (isOpen : (munch c after).piece = .fault .unterminated) :
    (munch c (after ++ [d])).piece = .fault .unterminated := by
  unfold munch at isOpen ⊢
  split at isOpen
  · cases isOpen
  split at isOpen
  · next blank quote =>
    rw [if_neg blank, if_pos quote]
    exact munchString_open ends isOpen
  split at isOpen
  · unfold munchNumber munchFraction at isOpen
    split at isOpen
    · split at isOpen <;> cases isOpen
    · cases isOpen
  split at isOpen
  · cases isOpen
  split at isOpen
  · cases isOpen
  split at isOpen <;> cases isOpen

end Lox.Token
