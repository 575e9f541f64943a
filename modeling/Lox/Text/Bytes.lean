set_option autoImplicit false

/-! Positions in a text are counted in bytes of its UTF-8 form, while the text itself is a list
of characters. This module cuts a text at a byte position; a position that falls inside a
character leaves an excess, so that no character is ever split. -/

namespace Lox.Text

def byteLength (text : List Char) : Nat :=
  text.foldl (fun total c => total + c.utf8Size) 0

/-- A text cut at a byte position. The excess is zero exactly when the position stands between
two characters or at an end of the text. -/
structure Cut where
  before : List Char
  after : List Char
  excess : Nat
deriving Repr, DecidableEq, Inhabited

/-- Moves whole characters to the front part, latest first, while the position allows. -/
def cutFrom : List Char → List Char → Nat → Cut
  | front, [], position => ⟨front.reverse, [], position⟩
  | front, c :: rest, position =>
    if c.utf8Size ≤ position then cutFrom (c :: front) rest (position - c.utf8Size)
    else ⟨front.reverse, c :: rest, position⟩

/-- Cuts a text at the last character boundary that is not after the position. -/
def cutAt (text : List Char) (position : Nat) : Cut :=
  cutFrom [] text position

/-- The characters of a byte range, if both of its ends are character boundaries of the text. -/
def slice? (text : List Char) (start length : Nat) : Option (List Char) :=
  let first := cutAt text start
  if first.excess = 0 then
    let second := cutAt first.after length
    if second.excess = 0 then some second.before else none
  else none

theorem byteLength_foldl (text : List Char) (total : Nat) :
    text.foldl (fun total c => total + c.utf8Size) total = total + byteLength text := by
  induction text generalizing total with
  | nil => rfl
  | cons c rest ih =>
      simp only [byteLength, List.foldl_cons, ih (total + c.utf8Size), ih (0 + c.utf8Size)]
      omega

@[simp]
theorem byteLength_nil : byteLength [] = 0 := rfl

@[simp]
theorem byteLength_cons (c : Char) (rest : List Char) :
    byteLength (c :: rest) = c.utf8Size + byteLength rest := by
  simp only [byteLength, List.foldl_cons, byteLength_foldl rest (0 + c.utf8Size)]
  omega

@[simp]
theorem byteLength_append (front back : List Char) :
    byteLength (front ++ back) = byteLength front + byteLength back := by
  induction front with
  | nil => simp
  | cons c rest ih => simp only [List.cons_append, byteLength_cons, ih]; omega

theorem byteLength_ofList (text : List Char) :
    (String.ofList text).utf8ByteSize = byteLength text := by
  induction text with
  | nil => simp [String.ofList_nil]
  | cons c rest ih =>
      have split : String.ofList (c :: rest) = String.ofList [c] ++ String.ofList rest := by
        rw [← String.ofList_append]
        rfl
      have one : (String.ofList [c]).utf8ByteSize = c.utf8Size := by
        rw [← String.singleton_eq_ofList]
        simp only [String.utf8ByteSize_singleton]
      rw [byteLength_cons, split, String.utf8ByteSize_append, one, ih]

@[simp]
theorem byteLength_toList (text : String) : byteLength text.toList = text.utf8ByteSize := by
  rw [← byteLength_ofList, String.ofList_toList]

theorem cutFrom_append (front text : List Char) (position : Nat) :
    (cutFrom front text position).before ++ (cutFrom front text position).after =
      front.reverse ++ text := by
  induction text generalizing front position with
  | nil => simp [cutFrom]
  | cons c rest ih =>
      simp only [cutFrom]
      split
      · rw [ih]; simp
      · rfl

theorem cutAt_append (text : List Char) (position : Nat) :
    (cutAt text position).before ++ (cutAt text position).after = text := by
  simpa [cutAt] using cutFrom_append [] text position

theorem cutFrom_position (front text : List Char) (position : Nat) :
    byteLength (cutFrom front text position).before + (cutFrom front text position).excess =
      byteLength front.reverse + position := by
  induction text generalizing front position with
  | nil => rfl
  | cons c rest ih =>
      simp only [cutFrom]
      split
      · rw [ih]
        simp only [List.reverse_cons, byteLength_append, byteLength_cons, byteLength_nil]
        omega
      · rfl

theorem cutAt_position (text : List Char) (position : Nat) :
    byteLength (cutAt text position).before + (cutAt text position).excess = position := by
  simpa [cutAt] using cutFrom_position [] text position

end Lox.Text
