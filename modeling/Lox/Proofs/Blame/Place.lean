import Lox.Proofs.Text.Location
import Lox.Proofs.Twin.Tokens
import Lox.Session

set_option autoImplicit false

/-! Where diagnostics are shown. The texts of all runs stand one after the other, with one byte between two of
them, so that a place in a text, its end included, is looked up in that text; and an item is named by how it
is written there, unless it is the end. -/

namespace Lox

open Text (byteLength)

namespace Session

/-- A source as it is read. -/
def textOf (source : String) : List Char :=
  Text.plainNewlines source.toList

/-- Where a run begins that comes after others, latest first. -/
def baseAfter : List String → Nat
  | [] => 0
  | source :: earlier => baseAfter earlier + byteLength (textOf source) + 1

/-- The texts of runs, latest first. -/
def textsOf : List String → List SourceText
  | [] => []
  | source :: earlier => ⟨baseAfter earlier, String.ofList (textOf source)⟩ :: textsOf earlier

/-- A later run begins behind the end of an earlier one. -/
theorem baseAfter_append (later : List String) (origin : String) (earlier : List String) :
    baseAfter earlier + byteLength (textOf origin) < baseAfter (later ++ origin :: earlier) := by
  induction later with
  | nil => exact Nat.lt_succ_self _
  | cons source rest ih =>
    rw [List.cons_append, baseAfter]
    omega

/-- Texts do not overlap: a position belongs to one run. -/
theorem run_of_position {later later' earlier earlier' : List String} {origin origin' : String}
    (sources : later ++ origin :: earlier = later' ++ origin' :: earlier') {x y : Nat}
    (inside : x ≤ byteLength (textOf origin)) (inside' : y ≤ byteLength (textOf origin'))
    (same : baseAfter earlier + x = baseAfter earlier' + y) :
    origin = origin' ∧ earlier = earlier' := by
  rcases List.append_eq_append_iff.mp sources with ⟨between, -, rows⟩ | ⟨between, -, rows⟩
  · cases between with
    | nil => exact List.cons.inj rows
    | cons first between =>
      have behind := baseAfter_append between origin' earlier'
      rw [(List.cons.inj rows).2, List.append_eq] at same
      omega
  · cases between with
    | nil =>
      obtain ⟨origins, rests⟩ := List.cons.inj rows
      exact ⟨origins.symm, rests.symm⟩
    | cons first between =>
      have behind := baseAfter_append between origin earlier
      rw [(List.cons.inj rows).2, List.append_eq] at same
      omega

end Session

open Session (textOf baseAfter textsOf)

namespace Reporter

variable {reporter : Reporter} {past : List String}

theorem nextBase_of_sources (sources : reporter.sources = textsOf past) :
    reporter.nextBase = baseAfter past := by
  unfold nextBase
  rw [sources]
  cases past with
  | nil => rfl
  | cons source earlier =>
    rw [textsOf, baseAfter, ← Text.byteLength_ofList]

/-- A place in the text of a run is found there, whatever has been run since. -/
theorem sourceAt_of_sources {later : List String} {origin : String} {earlier : List String}
    (sources : reporter.sources = textsOf (later ++ origin :: earlier)) {x : Nat}
    (inside : x ≤ byteLength (textOf origin)) :
    reporter.sourceAt (baseAfter earlier + x) = (String.ofList (textOf origin), x) := by
  unfold sourceAt
  rw [sources]
  clear sources
  induction later with
  | nil =>
    rw [List.nil_append, textsOf, List.find?_cons_of_pos (by simp)]
    exact congrArg (Prod.mk _) (Nat.add_sub_cancel_left _ _)
  | cons source rest ih =>
    have behind := Session.baseAfter_append rest origin earlier
    rw [List.cons_append, textsOf, List.find?_cons_of_neg (by simp; omega)]
    exact ih

end Reporter

namespace Text

theorem locate_line (before rest : List Char) :
    (locate (before ++ rest) (byteLength before)).line = 1 + before.count '\n' := by
  rw [locate_of_boundary, Nat.add_comm]

/-- Nothing can be cut out behind the end of a text. -/
theorem slice?_at_end (text : List Char) : slice? text (byteLength text) 1 = none := by
  have cut := cutAt_boundary text []
  rw [List.append_nil] at cut
  unfold slice?
  rw [cut]
  rfl

end Text

/-- A diagnostic in one line, with what is shown after the word "at". -/
def Diagnostic.inOneLine (d : Diagnostic) (line : Nat) (shown : String) : String :=
  "[line " ++ toString line ++ "] " ++ d.kind.name ++ " at " ++ shown ++ ": " ++ d.message ++ "\n"

namespace Diagnostic

variable (d : Diagnostic) (before taken rest : List Char)

theorem render_stretch (some : taken ≠ []) :
    d.render .reduced (before ++ taken ++ rest) (byteLength before) (byteLength taken) =
      d.inOneLine (1 + before.count '\n') ("'" ++ String.ofList taken ++ "'") := by
  obtain ⟨c, more, rfl⟩ := List.exists_cons_of_ne_nil some
  unfold render inOneLine
  dsimp only
  rw [Text.slice?_between, List.append_assoc, Text.locate_line]

theorem render_end :
    d.render .reduced before (byteLength before) 1 =
      d.inOneLine (1 + before.count '\n') "end" := by
  have line := Text.locate_line before []
  rw [List.append_nil] at line
  unfold render inOneLine
  dsimp only
  rw [Text.slice?_at_end, line]

end Diagnostic

namespace Token

/-- How an item is written: with the characters that a stretch of a text has, before others. -/
def Item.Written (taken rest : List Char) : Item → Prop
  | .token t => t.lexeme = String.ofList taken
  | .error e => Stands (.fault e.fault) taken rest

/-- An item of a text whose first byte has the position `base`, between what is before it and what is behind
it. Only the end of the text takes up none of it. -/
structure Item.Place (base : Nat) (text : List Char) (item : Item) (before taken rest : List Char) :
    Prop where
  whole : text = before ++ taken ++ rest
  start : item.span.start = base + byteLength before
  length : item.span.length = max (byteLength taken) 1
  written : item.Written taken rest
  ends : taken = [] ↔ item = .token (atEnd (base + byteLength text))

/-- What takes up nothing is behind all of the text. -/
theorem Item.Place.eq_of_nil {base : Nat} {text : List Char} {item : Item} {before taken rest : List Char}
    (place : item.Place base text before taken rest) (none : taken = []) : text = before := by
  have start := place.start
  rw [place.ends.mp none] at start
  have last : base + byteLength text = base + byteLength before := start
  have whole := place.whole
  rw [none, List.append_nil] at whole
  rw [whole, Text.byteLength_append] at last
  by_cases empty : rest = []
  · rw [whole, empty, List.append_nil]
  · have positive := Text.byteLength_pos empty
    omega

/-- Each item of a text has its place there. -/
theorem place_of_scan {base : Nat} {text : List Char} {item : Item} (member : item ∈ scan base text) :
    ∃ before taken rest, item.Place base text before taken rest := by
  have tiled := tiled_tiling base text
  rw [scan_eq_body] at member
  rcases List.mem_append.mp member with inside | last
  · have notLast : item ≠ .token (atEnd (base + byteLength text)) := by
      rintro rfl
      have impossible := isEnd_of_body inside
      cases impossible
    rw [body_eq_items] at inside
    obtain ⟨tile, inTiles, found, span⟩ := tiled.tile_of_item inside
    obtain ⟨before, rest, whole, place, stands⟩ := tiled.place tile inTiles
    have some := stands.taken_ne_nil
    have positive := Text.byteLength_pos some
    refine ⟨before, tile.taken, rest, whole, ?_, ?_, ?_, iff_of_false some notLast⟩
    · rw [span, place]
    · rw [span]
      change byteLength tile.taken = _
      omega
    · cases item with
      | token t =>
        rw [← (Tile.token_of_item? found).2.1]
        exact String.ofList_toList.symm
      | error e =>
        rw [Tile.fault_of_item? found] at stands
        exact stands
  · rw [List.mem_singleton] at last
    subst last
    exact ⟨text, [], [], by simp, rfl, rfl, rfl, iff_of_true rfl rfl⟩

/-- No two tokens of a text end at one place. -/
theorem eq_of_offset {base : Nat} {text : List Char} {t u : Token}
    (first : .token t ∈ body base text) (second : .token u ∈ body base text)
    (same : t.offset = u.offset) : t = u := by
  have tiled := tiled_tiling base text
  rw [body_eq_items] at first second
  obtain ⟨tile, inTiles, found, -⟩ := tiled.tile_of_item first
  obtain ⟨other, alsoIn, alsoFound, -⟩ := tiled.tile_of_item second
  by_cases equal : tile = other
  · rw [equal, alsoFound] at found
    cases found
    rfl
  · have apart := tiled.apart inTiles alsoIn equal
    have stop := (Tile.token_of_item? found).2.2
    have stop' := (Tile.token_of_item? alsoFound).2.2
    have some := tiled.start_lt_stop inTiles
    have some' := tiled.start_lt_stop alsoIn
    omega

theorem mem_body_of_ofText {base : Nat} {text : List Char} {t : Token} (member : t ∈ ofText base text)
    (inside : t.isEnd = false) : .token t ∈ body base text := by
  obtain ⟨item, inScan, found⟩ := List.mem_filterMap.mp member
  cases item with
  | error e => cases found
  | token u =>
    cases found
    rw [scan_eq_body] at inScan
    rcases List.mem_append.mp inScan with inBody | last
    · exact inBody
    · rw [List.mem_singleton] at last
      cases last
      cases inside

/-- The tokens of a text end inside of it. -/
theorem offset_of_body {base : Nat} {text : List Char} {t : Token}
    (member : .token t ∈ body base text) :
    ∃ x, x ≤ byteLength text ∧ t.offset = base + x := by
  have tiled := tiled_tiling base text
  rw [body_eq_items] at member
  obtain ⟨tile, inTiles, found, -⟩ := tiled.tile_of_item member
  obtain ⟨before, rest, rfl, place, -⟩ := tiled.place tile inTiles
  refine ⟨byteLength before + byteLength tile.taken, ?_, ?_⟩
  · rw [Text.byteLength_append, Text.byteLength_append]
    omega
  · rw [(Tile.token_of_item? found).2.2, Tile.stop, place, Nat.add_assoc]

end Token

/-- What is shown for a stretch of a text after the word "at". -/
def Diagnostic.shown (taken : List Char) : String :=
  if taken = [] then "end" else "'" ++ String.ofList taken ++ "'"

theorem Diagnostic.shown_eq_end_iff {taken : List Char} :
    Diagnostic.shown taken = "end" ↔ taken = [] := by
  unfold shown
  split
  · next none => exact iff_of_true rfl none
  · next some =>
    refine iff_of_false ?_ some
    intro same
    have chars := congrArg String.toList same
    rw [String.toList_append, String.toList_append] at chars
    cases chars

/-- An item of a run is shown against the text of the run, at its place there, whatever has been run since. -/
theorem Reporter.render_of_place {reporter : Reporter} {later earlier : List String} {origin : String}
    (reduced : reporter.style = .reduced)
    (sources : reporter.sources = textsOf (later ++ origin :: earlier)) {item : Token.Item}
    {before taken rest : List Char}
    (place : item.Place (baseAfter earlier) (textOf origin) before taken rest) {d : Diagnostic}
    (span : d.span = some item.span) :
    reporter.render d = d.inOneLine (1 + before.count '\n') (Diagnostic.shown taken) := by
  have whole := place.whole
  have inside : byteLength before ≤ byteLength (textOf origin) := by
    rw [whole, Text.byteLength_append, Text.byteLength_append]
    omega
  unfold Reporter.render
  rw [span]
  dsimp only
  rw [place.start, sourceAt_of_sources sources inside, place.length, reduced]
  dsimp only
  rw [String.toList_ofList]
  unfold Diagnostic.shown
  by_cases none : taken = []
  · rw [if_pos none, none, place.eq_of_nil none]
    exact d.render_end before
  · have longest : max (byteLength taken) 1 = byteLength taken := by
      have positive := Text.byteLength_pos none
      omega
    rw [if_neg none, longest, whole, Diagnostic.render_stretch d before taken rest none]

/-- Tokens that reading a switch makes up: the name of its hidden variable, and the operator that compares
it with an arm. -/
def Grammar.Fabricated (keyword t : Token) : Prop :=
  ∃ id, t = Rules.hiddenName id keyword ∨
    ∃ hidden pattern, Rules.armTest id hidden keyword pattern = .binary (.variable id hidden) t pattern

namespace Session

/-- An item of one of some runs. -/
structure StandsIn (sources later : List String) (origin : String) (earlier : List String)
    (item : Token.Item) : Prop where
  split : sources = later ++ origin :: earlier
  member : item ∈ Token.scan (baseAfter earlier) (textOf origin)

/-- No token that was read is one that reading a switch makes up: the name of a hidden variable is spelled
like no token, and where the made-up operator ends, the keyword of the switch does. -/
theorem StandsIn.not_fabricated {sources later earlier later' earlier' : List String}
    {origin origin' : String} {t keyword : Token}
    (stands : StandsIn sources later origin earlier (.token t))
    (switch : StandsIn sources later' origin' earlier' (.token keyword))
    (word : keyword.kind = .keyword .switchWord) : ¬Grammar.Fabricated keyword t := by
  have read : t ∈ Token.ofText (baseAfter earlier) (textOf origin) :=
    List.mem_filterMap.mpr ⟨_, stands.member, rfl⟩
  have wordRead : keyword ∈ Token.ofText (baseAfter earlier') (textOf origin') :=
    List.mem_filterMap.mpr ⟨_, switch.member, rfl⟩
  rintro ⟨id, hiddenName | ⟨hidden, pattern, operator⟩⟩
  · have twins : List.Forall₂ (Token.Twin Eq) (Token.ofText (baseAfter earlier) (textOf origin))
        (Token.ofText (baseAfter earlier) (textOf origin)) := Token.ofText_twin _ fun _ _ => rfl
    have plain := (List.forall₂_same.mp twins t read).plain
    exact plain id keyword (congrArg Token.lexeme hiddenName)
  · cases operator
    have first := Token.mem_body_of_ofText read rfl
    have second := Token.mem_body_of_ofText wordRead (by unfold Token.isEnd; rw [word])
    obtain ⟨x, inside, stop⟩ := Token.offset_of_body first
    obtain ⟨y, inside', stop'⟩ := Token.offset_of_body second
    have one : keyword.offset = baseAfter earlier + x := stop
    obtain ⟨rfl, rfl⟩ := run_of_position (stands.split.symm.trans switch.split) inside inside'
      (one.symm.trans stop')
    have equal := Token.eq_of_offset first second rfl
    rw [← equal] at word
    cases word

end Session
end Lox
