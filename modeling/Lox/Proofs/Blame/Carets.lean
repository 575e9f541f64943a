import Lox.Proofs.Blame.Course
import Lox.Proofs.Text.Location

set_option autoImplicit false

/-! What is underlined. A diagnostic shows one line of its text, and carets below it: the first under the first
character that the diagnostic is about, and one under each other such character of the line. A lexeme that
goes on over the end of the line has carets for the rest of it too, and no other has carets past the end. -/

namespace Lox

open Text (byteLength lines lineStart lastLine)
open Session (textOf baseAfter)

/-- A diagnostic with a line of a text and so many carets below it, from a column on. -/
def Diagnostic.underlined (d : Diagnostic) (line : Nat) (shown : List Char) (column carets : Nat) :
    String :=
  let margin := (toString line).length + " | ".length
  "\n\t" ++ toString line ++ " | " ++ String.ofList shown ++ "\n\t" ++
    String.ofList (List.replicate (margin + column) ' ') ++
    String.ofList (List.replicate carets '^') ++
    "\n" ++ d.kind.name ++ ": Line " ++ toString line ++ ": " ++ d.message ++ "\n"

namespace Diagnostic

variable (d : Diagnostic) (before taken rest : List Char)

theorem render_full_stretch (some : taken ≠ []) :
    d.render .full (before ++ taken ++ rest) (byteLength before) (byteLength taken) =
      d.underlined (before.count '\n' + 1)
        (lastLine before ++ (taken ++ rest).takeWhile (· != '\n')) (lastLine before).length
        taken.length := by
  have positive := List.length_pos_iff.mpr some
  have carets : max taken.length 1 = taken.length := by omega
  unfold render underlined
  dsimp only
  rw [Text.slice?_between, List.append_assoc, Text.locate_of_boundary, Option.elim_some, carets]

theorem render_full_end :
    d.render .full before (byteLength before) 1 =
      d.underlined (before.count '\n' + 1) (lastLine before) (lastLine before).length 1 := by
  have place := Text.locate_of_boundary before []
  rw [List.takeWhile_nil, List.append_nil, List.append_nil] at place
  unfold render underlined
  dsimp only
  rw [Text.slice?_at_end, place]
  rfl

end Diagnostic

/-! ### Columns of a line -/

namespace Text

theorem byteLength_take_lt {text : List Char} {k : Nat} (inside : k < text.length) :
    byteLength (text.take k) < byteLength text := by
  have whole := congrArg byteLength (List.take_append_drop k text)
  have behind : text.drop k ≠ [] := by simp [inside]
  have positive := byteLength_pos behind
  rw [byteLength_append] at whole
  omega

theorem byteLength_le_take {front text : List Char} {k : Nat} (first : front <+: text)
    (reach : front.length ≤ k) : byteLength front ≤ byteLength (text.take k) := by
  obtain ⟨rest, rfl⟩ := first
  rw [List.take_append, List.take_of_length_le reach, byteLength_append]
  omega

variable (before taken rest : List Char)

/-- The line that a stretch of a text begins on. -/
def lineAround : List Char :=
  lastLine before ++ (taken ++ rest).takeWhile (· != '\n')

/-- A column is covered by as many characters as the stretch has, from its first one on, if and only if the
character there begins at a byte of the stretch. -/
theorem column_iff_byte {k : Nat} (inLine : k < (lineAround before taken rest).length) :
    let place := lineStart (before ++ taken ++ rest) (before.count '\n' + 1) +
      byteLength ((lineAround before taken rest).take k)
    ((lastLine before).length ≤ k ∧ k < (lastLine before).length + taken.length) ↔
      byteLength before ≤ place ∧ place < byteLength before + byteLength taken := by
  intro place
  have start := (line_of_split before (taken ++ rest)).2
  rw [← List.append_assoc] at start
  rw [lineAround, List.length_append] at inLine
  by_cases earlier : k < (lastLine before).length
  · have less := byteLength_take_lt earlier
    have same : place = lineStart (before ++ taken ++ rest) (before.count '\n' + 1) +
        byteLength ((lastLine before).take k) := by
      simp only [place, lineAround, List.take_append_of_le_length (Nat.le_of_lt earlier)]
    omega
  · obtain ⟨j, rfl⟩ := Nat.exists_eq_add_of_le (Nat.le_of_not_lt earlier)
    have front := List.takeWhile_prefix (l := taken ++ rest) (p := (· != '\n'))
    have same : place = byteLength before + byteLength ((taken ++ rest).take j) := by
      obtain ⟨behind, split⟩ := front
      have part : (taken ++ rest).take j = ((taken ++ rest).takeWhile (· != '\n')).take j := by
        conv_lhs => rw [← split]
        exact List.take_append_of_le_length (by omega)
      simp only [place, lineAround, List.take_length_add_append, byteLength_append, part]
      omega
    rw [same]
    by_cases inside : j < taken.length
    · have less := byteLength_take_lt inside
      rw [List.take_append_of_le_length (Nat.le_of_lt inside)]
      omega
    · have reach := byteLength_le_take (List.prefix_append taken rest) (Nat.le_of_not_lt inside)
      omega

/-- A stretch ends on the line that it begins on, unless there is a newline in it. -/
theorem ends_on_line_iff :
    (lastLine before).length + taken.length ≤ (lineAround before taken rest).length ↔ '\n' ∉ taken := by
  unfold lineAround
  rw [List.length_append]
  obtain ⟨oneLine, alone | ⟨more, split⟩⟩ := firstLine_cases taken
  · have all := List.takeWhile_eq_self_iff.mp alone.symm
    have passed : (taken ++ rest).takeWhile (· != '\n') = taken ++ rest.takeWhile (· != '\n') :=
      List.takeWhile_append_of_pos all
    rw [passed, List.length_append]
    rw [← alone] at oneLine
    exact iff_of_true (by omega) oneLine
  · have short : (taken ++ rest).takeWhile (· != '\n') = taken.takeWhile (· != '\n') := by
      conv_lhs => rw [split]
      rw [List.append_assoc, List.cons_append, Token.takeWhile_cut rfl, List.takeWhile_idem]
    have longer := congrArg List.length split
    rw [List.length_append, List.length_cons] at longer
    rw [short]
    refine iff_of_false (by omega) (not_not_intro ?_)
    rw [split]
    simp

end Text

namespace Token.Item.Place

variable {base : Nat} {text : List Char} {item : Token.Item} {before taken rest : List Char}

/-- The end of a text is on its last line, which it does not add to. -/
theorem lineAround_of_nil (place : item.Place base text before taken rest) (none : taken = []) :
    Text.lineAround before taken rest = lastLine before := by
  have whole := place.whole
  rw [place.eq_of_nil none, none, List.append_nil] at whole
  rw [none, List.self_eq_append_right.mp whole]
  exact List.append_nil _

/-- The first caret is where the item starts. -/
theorem first_caret (place : item.Place base text before taken rest) :
    base + (lineStart text (before.count '\n' + 1) +
      byteLength ((Text.lineAround before taken rest).take (lastLine before).length)) =
        item.span.start := by
  have starts := (Text.line_of_split before (taken ++ rest)).2
  have front : (Text.lineAround before taken rest).take (lastLine before).length = lastLine before :=
    List.take_left' rfl
  rw [← List.append_assoc, ← place.whole] at starts
  rw [front, starts, place.start]

/-- A character of the line is above a caret if and only if it begins at a byte of the item. -/
theorem caret_iff (place : item.Place base text before taken rest) {k : Nat}
    (inLine : k < (Text.lineAround before taken rest).length) :
    let byte := base + (lineStart text (before.count '\n' + 1) +
      byteLength ((Text.lineAround before taken rest).take k))
    ((lastLine before).length ≤ k ∧ k < (lastLine before).length + max taken.length 1) ↔
      item.span.start ≤ byte ∧ byte < item.span.start + item.span.length := by
  intro byte
  by_cases none : taken = []
  · have last := place.lineAround_of_nil none
    have first := place.first_caret
    rw [last] at inLine first
    rw [List.take_length] at first
    have less := Text.byteLength_take_lt inLine
    have early : byte < item.span.start := by
      simp only [byte, last]
      omega
    exact iff_of_false (fun under => absurd under.1 (Nat.not_le.mpr inLine))
      fun within => absurd within.1 (Nat.not_le.mpr early)
  · have columns := Text.column_iff_byte before taken rest inLine
    rw [← place.whole] at columns
    have first := place.start
    have length := place.length
    have positive := Text.byteLength_pos none
    have some := List.length_pos_iff.mpr none
    simp only [byte]
    omega

/-- Carets end on the line, unless the item goes on over the end of it or is the end of the text. -/
theorem carets_end_iff (place : item.Place base text before taken rest) :
    taken ≠ [] ∧ '\n' ∉ taken ↔
      (lastLine before).length + max taken.length 1 ≤ (Text.lineAround before taken rest).length := by
  by_cases none : taken = []
  · rw [place.lineAround_of_nil none]
    simp [none]
  · have some := List.length_pos_iff.mpr none
    have same : max taken.length 1 = taken.length := by omega
    rw [same, Text.ends_on_line_iff before taken rest]
    exact and_iff_right none

end Token.Item.Place

/-- In the style with carets, an item is shown on its line in the text of its run. -/
theorem Reporter.render_of_place_full {reporter : Reporter} {later earlier : List String} {origin : String}
    (full : reporter.style = .full)
    (sources : reporter.sources = Session.textsOf (later ++ origin :: earlier)) {item : Token.Item}
    {before taken rest : List Char}
    (place : item.Place (baseAfter earlier) (textOf origin) before taken rest) {d : Diagnostic}
    (span : d.span = some item.span) :
    reporter.render d = d.underlined (before.count '\n' + 1) (Text.lineAround before taken rest)
      (lastLine before).length (max taken.length 1) := by
  have whole := place.whole
  have inside : byteLength before ≤ byteLength (textOf origin) := by
    rw [whole, Text.byteLength_append, Text.byteLength_append]
    omega
  unfold Reporter.render
  rw [span]
  dsimp only
  rw [place.start, sourceAt_of_sources sources inside, place.length, full]
  dsimp only
  rw [String.toList_ofList]
  by_cases none : taken = []
  · rw [place.lineAround_of_nil none, place.eq_of_nil none, none]
    exact d.render_full_end before
  · have positive := Text.byteLength_pos none
    have longest : max (byteLength taken) 1 = byteLength taken := by omega
    have some := List.length_pos_iff.mpr none
    have carets : max taken.length 1 = taken.length := by omega
    rw [longest, carets, whole, Diagnostic.render_full_stretch d before taken rest none]
    rfl

/-- In a session that shows diagnostics with carets, whatever a run reports with a place in a source is shown
with the one line of its text that it begins on. The first caret is under the first character of its span, and
a character of the line is above a caret if and only if it belongs to the span. At the end of a text there is
one caret, just after the last character; and else carets end on the line, unless the span goes on over the
end of it. -/
theorem carets_underline_the_span {past : List String} {s : Session} (reached : s.HasRun past)
    (full : s.config.style = .full) (bound : Nat) (source : String) :
    ∀ d ∈ (s.journal bound source).reported, ∀ span, d.span = some span →
      ∃ item later origin earlier before taken rest shown,
        s.Blames bound source d item ∧
        Session.StandsIn (source :: past) later origin earlier item ∧
        item.Place (baseAfter earlier) (textOf origin) before taken rest ∧
        let line := before.count '\n' + 1
        let column := (lastLine before).length
        let carets := max taken.length 1
        let byteAt := fun k =>
          baseAfter earlier + (lineStart (textOf origin) line + byteLength (shown.take k))
        (s.begun source).render d = d.underlined line shown column carets ∧
        (lines (textOf origin))[line - 1]? = some shown ∧
        byteAt column = span.start ∧
        (∀ k < shown.length, (column ≤ k ∧ k < column + carets) ↔
          (span.start ≤ byteAt k ∧ byteAt k < span.start + span.length)) ∧
        (taken = [] → column = shown.length ∧ carets = 1) ∧
        (taken ≠ [] ∧ '\n' ∉ taken ↔ column + carets ≤ shown.length) := by
  intro d member span placed
  obtain ⟨sites, reachable⟩ := reached.reachable
  have traceable := reached.traceable
  have told := Session.told_journal traceable reachable.sound bound source
  have some : d.span ≠ none := by simp [placed]
  obtain ⟨item, later, origin, earlier, blames, stands, -⟩ := told.reported d member some
  obtain ⟨before, taken, rest, place⟩ := Token.place_of_scan stands.member
  have style : (s.begun source).style = .full := traceable.style.trans full
  have sources := Session.sources_begun traceable source
  rw [stands.split] at sources
  have same : span = item.span := Option.some.inj (placed.symm.trans blames.span)
  subst same
  have onLine := (Text.line_of_split before (taken ++ rest)).1
  rw [← List.append_assoc, ← place.whole] at onLine
  refine ⟨item, later, origin, earlier, before, taken, rest, Text.lineAround before taken rest, blames,
    stands, place, Reporter.render_of_place_full style sources place blames.span, onLine,
    place.first_caret, fun k inLine => place.caret_iff inLine, fun none => ?_, place.carets_end_iff⟩
  rw [place.lineAround_of_nil none, none]
  exact ⟨rfl, rfl⟩

/-- A name with letters of two bytes, behind a line with one. -/
theorem carets_underline_the_span_of_wide_letters :
    let s := Session.new {} .unlimited .unlimited
    let source := "// é\r\nprint größe + 1;"
    (s.journal 8 source).reported.map (s.begun source).render =
        ["\n\t2 | print größe + 1;\n\t          ^^^^^\nRuntimeError: Line 2: Undefined variable 'größe'.\n"] ∧
      ∀ d ∈ (s.journal 8 source).reported, ∀ span, d.span = some span →
        ∃ before taken rest shown, textOf source = before ++ taken ++ rest ∧
          (s.begun source).render d = d.underlined (before.count '\n' + 1) shown
            (lastLine before).length (max taken.length 1) := by
  intro s source
  refine ⟨by decide +kernel, fun d member span placed => ?_⟩
  obtain ⟨item, later, origin, earlier, before, taken, rest, shown, -, stands, place, rendered, -⟩ :=
    carets_underline_the_span (.new {} .unlimited .unlimited) rfl 8 source d member span placed
  obtain ⟨rfl, rfl⟩ : later = [] ∧ origin = source := by
    have split := stands.split
    cases later with
    | nil => exact ⟨rfl, (List.cons.inj split).1.symm⟩
    | cons first more => exact absurd (List.cons.inj split).2 (by simp)
  exact ⟨before, taken, rest, shown, place.whole, rendered⟩

/-- An open string has carets for what is behind its first line too. -/
example :
    let s := Session.new {} .unlimited .unlimited
    (s.journal 8 "\"ab\ncd").reported.map (s.begun "\"ab\ncd").render =
      ["\n\t1 | \"ab\n\t    ^^^^^^\nLexicalError: Line 1: Unterminated string.\n"] := by
  decide +kernel

end Lox
