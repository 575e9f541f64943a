import Lox.Proofs.Token.Tiling
import Lox.Text.Position

set_option autoImplicit false

/-! Lines and columns are exact. A newline is one byte, which occurs in the form of no other character, so that
the newlines before a byte position tell its line; the lines, with a newline behind each, take up all of the
text; and from the line and the column a position is found again, so that no two positions between characters
have the same line and column, and a later one never has an earlier line or column. -/

namespace Lox.Text

/-- The UTF-8 form of a text. -/
def bytes (text : List Char) : List UInt8 :=
  text.flatMap String.utf8EncodeChar

def newlineByte : UInt8 := 10

/-- The pieces of a text between its newlines. -/
def lines (text : List Char) : List (List Char) :=
  text.splitOn '\n'

/-- The bytes of some lines, with a newline behind each. -/
def linesLength : List (List Char) → Nat
  | [] => 0
  | row :: rest => byteLength row + 1 + linesLength rest

/-- Where a line starts. Lines count from one. -/
def lineStart (text : List Char) (line : Nat) : Nat :=
  linesLength ((lines text).take (line - 1))

/-- A position between two characters of a text, or at one of its ends. -/
def IsBoundary (text : List Char) (position : Nat) : Prop :=
  ∃ before after, text = before ++ after ∧ byteLength before = position

/-! ### Bytes -/

@[simp]
theorem bytes_cons (c : Char) (rest : List Char) :
    bytes (c :: rest) = String.utf8EncodeChar c ++ bytes rest := rfl

@[simp]
theorem bytes_append (front back : List Char) : bytes (front ++ back) = bytes front ++ bytes back :=
  List.flatMap_append

theorem length_bytes (text : List Char) : (bytes text).length = byteLength text := by
  induction text with
  | nil => rfl
  | cons c rest ih => simp [ih]

/-- Each byte of a character of more than one byte has its highest bit set. -/
theorem newline_not_mem_wide {c : Char} (wide : c.utf8Size ≠ 1) :
    newlineByte ∉ String.utf8EncodeChar c := by
  have high (x y : UInt8) (bit : y.toBitVec[7] = true) : newlineByte ≠ x ||| y := by
    intro same
    have bits := congrArg (fun b : UInt8 => b.toBitVec[7]) same
    simp [newlineByte, bit] at bits
  have size := Char.utf8Size_pos c
  have most := Char.utf8Size_le_four c
  rcases show c.utf8Size = 2 ∨ c.utf8Size = 3 ∨ c.utf8Size = 4 by omega with two | three | four
  · rw [String.utf8EncodeChar_eq_cons_cons two]
    simp [high]
  · rw [String.utf8EncodeChar_eq_cons_cons_cons three]
    simp [high]
  · rw [String.utf8EncodeChar_eq_cons_cons_cons_cons four]
    simp [high]

theorem count_newline_encode (c : Char) :
    (String.utf8EncodeChar c).count newlineByte = if c = '\n' then 1 else 0 := by
  by_cases same : c = '\n'
  · subst same
    decide
  · rw [if_neg same, List.count_eq_zero]
    by_cases narrow : c.utf8Size = 1
    · rw [String.utf8EncodeChar_eq_singleton narrow, List.mem_singleton]
      intro byte
      have small := UInt32.le_iff_toNat_le.mp (Char.utf8Size_eq_one_iff.mp narrow)
      have code := congrArg UInt8.toNat byte
      rw [UInt32.toNat_toUInt8] at code
      refine same (Char.ext (UInt32.toNat_inj.mp ?_))
      change c.val.toNat = 10
      have most : (127 : UInt32).toNat = 127 := rfl
      have ten : newlineByte.toNat = 10 := rfl
      omega
    · exact newline_not_mem_wide narrow

theorem count_newline_bytes (text : List Char) :
    (bytes text).count newlineByte = text.count '\n' := by
  induction text with
  | nil => rfl
  | cons c rest ih =>
    rw [bytes_cons, List.count_append, ih, count_newline_encode, List.count_cons]
    by_cases same : c = '\n' <;> simp [same, Nat.add_comm]

/-! ### Lines -/

theorem lines_newline (front back : List Char) :
    lines (front ++ '\n' :: back) = lines front ++ lines back :=
  List.splitOn_append_cons_self front back

theorem lines_oneLine {text : List Char} (oneLine : '\n' ∉ text) : lines text = [text] :=
  List.splitOn_eq_singleton oneLine

theorem linesLength_append (front back : List (List Char)) :
    linesLength (front ++ back) = linesLength front + linesLength back := by
  induction front with
  | nil => exact (Nat.zero_add _).symm
  | cons row rest ih =>
    rw [List.cons_append, linesLength, linesLength, ih]
    omega

theorem length_lines (text : List Char) : (lines text).length = text.count '\n' + 1 := by
  induction text with
  | nil => rfl
  | cons c rest ih =>
    unfold lines at ih ⊢
    rw [List.splitOn_cons_eq_if_modifyHead, List.count_cons]
    by_cases newline : c = '\n' <;> simp [newline, ih]

/-- The last line has no newline of its own. -/
theorem linesLength_lines (text : List Char) : linesLength (lines text) = byteLength text + 1 := by
  induction text with
  | nil => rfl
  | cons c rest ih =>
    unfold lines at ih ⊢
    rw [List.splitOn_cons_eq_if_modifyHead, byteLength_cons]
    by_cases newline : c = '\n'
    · subst newline
      have one : Char.utf8Size '\n' = 1 := rfl
      have empty : linesLength [[]] = 1 := rfl
      rw [if_pos (beq_self_eq_true _), ← List.singleton_append, linesLength_append, ih, one, empty]
      omega
    · obtain ⟨first, others, split⟩ := List.exists_cons_of_ne_nil (List.splitOn_ne_nil '\n' rest)
      rw [split] at ih ⊢
      rw [linesLength] at ih
      simp only [beq_iff_eq, newline, if_false, List.modifyHead_cons, linesLength, byteLength_cons]
      omega

/-- A text is its first line alone, or that line before a newline. -/
theorem firstLine_cases (text : List Char) :
    '\n' ∉ text.takeWhile (· != '\n') ∧
      (text = text.takeWhile (· != '\n') ∨
        ∃ rest, text = text.takeWhile (· != '\n') ++ '\n' :: rest) := by
  constructor
  · intro member
    exact absurd (List.mem_takeWhile_imp member) (by decide)
  · have whole := List.takeWhile_append_dropWhile (p := (· != '\n')) (l := text)
    cases left : text.dropWhile (· != '\n') with
    | nil =>
      rw [left, List.append_nil] at whole
      exact .inl whole.symm
    | cons c rest =>
      have newline : c = '\n' := by
        have stops := List.head?_dropWhile_not (· != '\n') text
        rw [left] at stops
        simpa using stops
      rw [left, newline] at whole
      exact .inr ⟨rest, whole.symm⟩

/-- A text is its last line alone, or that line behind a newline. -/
theorem lastLine_cases (text : List Char) :
    '\n' ∉ lastLine text ∧
      (text = lastLine text ∨ ∃ front, text = front ++ '\n' :: lastLine text) := by
  obtain ⟨oneLine, alone | ⟨rest, before⟩⟩ := firstLine_cases text.reverse
  · refine ⟨mt List.mem_reverse.mp oneLine, .inl ?_⟩
    have same := congrArg List.reverse alone
    rwa [List.reverse_reverse] at same
  · refine ⟨mt List.mem_reverse.mp oneLine, .inr ⟨rest.reverse, ?_⟩⟩
    have same := congrArg List.reverse before
    rwa [List.reverse_reverse, List.reverse_append, List.reverse_cons, List.append_assoc] at same

theorem head_lines {onLine : List Char} (oneLine : '\n' ∉ onLine) (after : List Char) :
    (lines (onLine ++ after))[0]? = some (onLine ++ after.takeWhile (· != '\n')) := by
  obtain ⟨none, alone | ⟨rest, before⟩⟩ := firstLine_cases after
  · have here : '\n' ∉ onLine ++ after := by
      rw [← alone] at none
      simp [oneLine, none]
    rw [← alone, lines_oneLine here]
    rfl
  · have here : '\n' ∉ onLine ++ after.takeWhile (· != '\n') := by simp [oneLine, none]
    conv_lhs => rw [before]
    rw [← List.append_assoc, lines_newline, lines_oneLine here]
    rfl

/-- What is before a place chooses the line that it is on, and where that line starts. -/
theorem line_of_split (before after : List Char) :
    (lines (before ++ after))[before.count '\n']? =
        some (lastLine before ++ after.takeWhile (· != '\n')) ∧
      lineStart (before ++ after) (before.count '\n' + 1) + byteLength (lastLine before) =
        byteLength before := by
  obtain ⟨oneLine, alone | ⟨front, behind⟩⟩ := lastLine_cases before
  · have none : before.count '\n' = 0 := List.count_eq_zero.mpr (alone ▸ oneLine)
    rw [none]
    refine ⟨?_, ?_⟩
    · conv_lhs => rw [alone]
      exact head_lines oneLine after
    · rw [← alone]
      simp [lineStart, linesLength]
  · have one : Char.utf8Size '\n' = 1 := rfl
    have count : before.count '\n' = (lines front).length := by
      rw [length_lines]
      conv_lhs => rw [behind]
      simp [List.count_append, List.count_eq_zero.mpr oneLine]
    have rows : lines (before ++ after) = lines front ++ lines (lastLine before ++ after) := by
      conv_lhs => rw [behind]
      rw [List.append_assoc, List.cons_append, lines_newline]
    rw [count, rows]
    refine ⟨?_, ?_⟩
    · rw [List.getElem?_append_right (Nat.le_refl _), Nat.sub_self]
      exact head_lines oneLine after
    · unfold lineStart
      rw [rows, Nat.add_sub_cancel, List.take_left' rfl, linesLength_lines]
      conv_rhs => rw [behind]
      rw [byteLength_append, byteLength_cons, one]
      omega

/-! ### Cutting at a position -/

/-- A text is cut behind as many characters as fit before the position. -/
theorem excess_lt_of_cutFrom (front text : List Char) (position : Nat)
    (inside : position ≤ byteLength text) :
    (cutFrom front text position).excess = 0 ∨ ∃ c rest,
      (cutFrom front text position).after = c :: rest ∧
        (cutFrom front text position).excess < c.utf8Size := by
  induction text generalizing front position with
  | nil => exact .inl (Nat.le_zero.mp inside)
  | cons c rest ih =>
    rw [byteLength_cons] at inside
    rw [cutFrom]
    by_cases fits : c.utf8Size ≤ position
    · rw [if_pos fits]
      exact ih _ _ (by omega)
    · rw [if_neg fits]
      exact .inr ⟨c, rest, rfl, by dsimp only; omega⟩

theorem excess_lt_of_cutAt {text : List Char} {position : Nat}
    (inside : position ≤ byteLength text) :
    (cutAt text position).excess = 0 ∨ ∃ c rest,
      (cutAt text position).after = c :: rest ∧ (cutAt text position).excess < c.utf8Size :=
  excess_lt_of_cutFrom [] text position inside

/-- Only whole characters before a position can be newlines. -/
theorem count_newline_take (source : List Char) (position : Nat)
    (inside : position ≤ byteLength source) :
    ((bytes source).take position).count newlineByte =
      (cutAt source position).before.count '\n' := by
  have whole := cutAt_append source position
  have place := cutAt_position source position
  have cases := excess_lt_of_cutAt inside
  generalize cutAt source position = cut at *
  obtain ⟨before, after, excess⟩ := cut
  dsimp only at *
  have rest : ((bytes after).take excess).count newlineByte = 0 := by
    rcases cases with none | ⟨c, rest, first, short⟩
    · simp [none]
    · have fits : excess ≤ (String.utf8EncodeChar c).length := by
        rw [String.length_utf8EncodeChar]
        exact short.le
      rw [first, bytes_cons, List.take_append_of_le_length fits, List.count_eq_zero]
      intro member
      by_cases narrow : c.utf8Size = 1
      · have nothing : excess = 0 := by omega
        rw [nothing, List.take_zero] at member
        cases member
      · exact newline_not_mem_wide narrow (List.mem_of_mem_take member)
  rw [← whole, ← place, bytes_append, ← length_bytes, List.take_length_add_append,
    List.count_append, count_newline_bytes, rest]
  rfl

/-! ### Places -/

theorem lastLine_append {front : List Char} {back : List Char} (oneLine : '\n' ∉ back) :
    lastLine (front ++ back) = lastLine front ++ back := by
  have all : back.reverse.takeWhile (· != '\n') = back.reverse := by
    rw [List.takeWhile_eq_self_iff]
    intro c member
    rw [bne_iff_ne]
    rintro rfl
    exact oneLine (List.mem_reverse.mp member)
  unfold lastLine
  rw [List.reverse_append, List.takeWhile_append, all, if_pos rfl, List.reverse_append,
    List.reverse_reverse]

/-- The place of a position between two characters. -/
theorem locate_of_boundary (before after : List Char) :
    locate (before ++ after) (byteLength before) =
      ⟨before.count '\n' + 1, (lastLine before).length,
        lastLine before ++ after.takeWhile (· != '\n')⟩ := by
  have inside : min (byteLength before) (byteLength (before ++ after)) = byteLength before := by
    rw [byteLength_append]
    omega
  unfold locate
  rw [inside, cutAt_boundary]
  rfl

/-- The line of any position, and the newlines before it. -/
theorem line_of_locate (source : List Char) (position : Nat) :
    (locate source position).line =
        1 + ((bytes source).take (min position (byteLength source))).count newlineByte ∧
      (lines source)[(locate source position).line - 1]? = some (locate source position).text := by
  rw [count_newline_take source _ (Nat.min_le_right _ _)]
  unfold locate
  dsimp only
  refine ⟨Nat.add_comm _ 1, ?_⟩
  have whole := cutAt_append source (min position (byteLength source))
  generalize cutAt source (min position (byteLength source)) = cut at whole
  rw [Nat.add_sub_cancel, ← whole]
  exact (line_of_split cut.before cut.after).1

/-- A position between two characters is found again from its line and column. -/
theorem position_of_locate {source : List Char} {position : Nat}
    (boundary : IsBoundary source position) :
    (locate source position).column ≤ (locate source position).text.length ∧
      lineStart source (locate source position).line +
        byteLength ((locate source position).text.take (locate source position).column) =
          position := by
  obtain ⟨before, after, rfl, rfl⟩ := boundary
  rw [locate_of_boundary]
  dsimp only
  rw [List.take_left' rfl, List.length_append]
  exact ⟨Nat.le_add_right _ _, (line_of_split before after).2⟩

theorem eq_of_locate {source : List Char} {position other : Nat}
    (boundary : IsBoundary source position) (another : IsBoundary source other)
    (sameLine : (locate source position).line = (locate source other).line)
    (sameColumn : (locate source position).column = (locate source other).column) :
    position = other := by
  have sameText : (locate source position).text = (locate source other).text := by
    have first := (line_of_locate source position).2
    rw [sameLine, (line_of_locate source other).2] at first
    exact (Option.some.inj first).symm
  rw [← (position_of_locate boundary).2, ← (position_of_locate another).2, sameLine, sameColumn,
    sameText]

theorem locate_mono {source : List Char} {position later : Nat}
    (boundary : IsBoundary source position) (another : IsBoundary source later)
    (order : position ≤ later) :
    (locate source position).line < (locate source later).line ∨
      (locate source position).line = (locate source later).line ∧
        (locate source position).column ≤ (locate source later).column := by
  obtain ⟨before, after, rfl, rfl⟩ := boundary
  obtain ⟨before', after', whole, rfl⟩ := another
  obtain ⟨between, rfl⟩ : ∃ between, before' = before ++ between := by
    rcases List.append_eq_append_iff.mp whole with ⟨between, same, -⟩ | ⟨between, same, -⟩
    · exact ⟨between, same⟩
    · by_cases none : between = []
      · exact ⟨[], by rw [same, none, List.append_nil, List.append_nil]⟩
      · have positive := byteLength_pos none
        rw [same, byteLength_append] at order
        omega
  rw [locate_of_boundary, whole, locate_of_boundary]
  dsimp only
  rw [List.count_append]
  by_cases oneLine : '\n' ∉ between
  · rw [lastLine_append oneLine, List.count_eq_zero.mpr oneLine, List.length_append]
    exact .inr ⟨rfl, Nat.le_add_right _ _⟩
  · have more := List.count_pos_iff.mpr (not_not.mp oneLine)
    exact .inl (by omega)

/-- Of every byte position, past the end the end: its line counts the newlines before it and its text is that
piece of the source. Of a position between two characters: so many characters of the line, behind the bytes of
the lines before, end there; another one has another line or column; and a later one has a later line, or the
same line and no earlier column. -/
theorem locate_is_exact (source : List Char) :
    (∀ position, let place := locate source position
      let inside := min position (byteLength source)
      place.line = 1 + ((bytes source).take inside).count newlineByte ∧
      (lines source)[place.line - 1]? = some place.text ∧
      (IsBoundary source inside → place.column ≤ place.text.length ∧
        lineStart source place.line + byteLength (place.text.take place.column) = inside)) ∧
    (∀ position other, IsBoundary source position → IsBoundary source other → position ≠ other →
      ((locate source position).line, (locate source position).column) ≠
        ((locate source other).line, (locate source other).column)) ∧
    ∀ position later, IsBoundary source position → IsBoundary source later → position ≤ later →
      (locate source position).line < (locate source later).line ∨
        (locate source position).line = (locate source later).line ∧
          (locate source position).column ≤ (locate source later).column := by
  refine ⟨fun position => ?_, ?_, fun _ _ => locate_mono⟩
  · obtain ⟨line, text⟩ := line_of_locate source position
    refine ⟨line, text, fun boundary => ?_⟩
    have clamped : locate source position = locate source (min position (byteLength source)) := by
      unfold locate
      rw [Nat.min_assoc, Nat.min_self]
    rw [clamped]
    exact position_of_locate boundary
  · intro position other boundary another different same
    obtain ⟨sameLine, sameColumn⟩ := Prod.mk.inj same
    exact different (eq_of_locate boundary another sameLine sameColumn)

/-- On the second line, behind a character of three bytes. -/
theorem locate_is_exact_behind_arrow :
    let source := "ö\n→b".toList
    (locate source 6 = ⟨2, 1, "→b".toList⟩ ∧ IsBoundary source 3 ∧
      IsBoundary source (min 6 (byteLength source)) ∧ 3 ≠ 6 ∧ 3 ≤ 6) ∧
    (lineStart source (locate source 6).line +
        byteLength ((locate source 6).text.take (locate source 6).column) = 6 ∧
      ((locate source 3).line, (locate source 3).column) ≠
        ((locate source 6).line, (locate source 6).column) ∧
      ((locate source 3).line < (locate source 6).line ∨
        (locate source 3).line = (locate source 6).line ∧
          (locate source 3).column ≤ (locate source 6).column)) := by
  intro source
  have start : IsBoundary source 3 := ⟨['ö', '\n'], ['→', 'b'], rfl, rfl⟩
  have middle : IsBoundary source (min 6 (byteLength source)) :=
    ⟨['ö', '\n', '→'], ['b'], rfl, rfl⟩
  obtain ⟨exact, apart, ordered⟩ := locate_is_exact source
  refine ⟨⟨rfl, start, middle, by decide, by decide⟩, ?_⟩
  exact ⟨((exact 6).2.2 middle).2, apart 3 6 start middle (by decide),
    ordered 3 6 start middle (by decide)⟩

end Lox.Text
