import Lox.Proofs.Token.Lexeme
import Lox.Proofs.Token.Lines
import Mathlib.Data.List.Pairwise

set_option autoImplicit false

/-! A text is laid out with tiles: blanks, comments, tokens and faults, each the one that must stand where
it begins. There is only one such layout, and reading a text yields the items of its tiles, at their places
and in their order. -/

namespace Lox.Text

theorem cutFrom_boundary (front before rest : List Char) :
    cutFrom front (before ++ rest) (byteLength before) = ⟨front.reverse ++ before, rest, 0⟩ := by
  induction before generalizing front with
  | nil =>
      rw [List.nil_append, List.append_nil, byteLength_nil]
      cases rest with
      | nil => rfl
      | cons c rest =>
          have some := Char.utf8Size_pos c
          rw [cutFrom, if_neg (by omega)]
  | cons c before ih =>
      rw [List.cons_append, cutFrom, byteLength_cons, if_pos (by omega), Nat.add_sub_cancel_left, ih,
        List.reverse_cons, List.append_assoc, List.singleton_append]

theorem cutAt_boundary (before rest : List Char) :
    cutAt (before ++ rest) (byteLength before) = ⟨before, rest, 0⟩ :=
  cutFrom_boundary [] before rest

/-- A stretch between two characters of a text can be cut out of it. -/
theorem slice?_between (before taken rest : List Char) :
    slice? (before ++ taken ++ rest) (byteLength before) (byteLength taken) = some taken := by
  unfold slice?
  rw [List.append_assoc, cutAt_boundary]
  dsimp only
  rw [if_pos rfl, cutAt_boundary]
  rfl

theorem byteLength_pos {text : List Char} (some : text ≠ []) : 0 < byteLength text := by
  cases text with
  | nil => exact absurd rfl some
  | cons c rest =>
      have first := Char.utf8Size_pos c
      rw [byteLength_cons]
      omega

end Lox.Text

namespace Lox.Token

open Text (byteLength slice?)

/-- The longest lexeme at the front of a text. -/
structure Longest (text lexeme : List Char) (kind : Kind) : Prop where
  valid : Lexeme lexeme kind
  front : lexeme <+: text
  longest : ∀ other otherKind, Lexeme other otherKind → other <+: text → other.length ≤ lexeme.length

/-- What stands in a text, how it is written, and what is behind it. -/
inductive Stands : Piece → List Char → List Char → Prop
  | blank {c : Char} (rest : List Char) (blank : isBlank c = true) : Stands .gap [c] rest
  /-- A comment ends before its newline, or where the text does. -/
  | comment {line rest : List Char} (oneLine : '\n' ∉ line) (ends : ∀ d ∈ rest.head?, d = '\n') :
      Stands .gap ('/' :: '/' :: line) rest
  | token {kind : Kind} {lexeme rest : List Char} (longest : Longest (lexeme ++ rest) lexeme kind)
      (noComment : ¬['/', '/'] <+: lexeme ++ rest) : Stands (.token kind) lexeme rest
  /-- A character that begins nothing. -/
  | unexpected {c : Char} {rest : List Char} (blank : isBlank c = false) (quote : c ≠ '"')
      (none : ∀ lexeme kind, Lexeme lexeme kind → ¬lexeme <+: c :: rest) :
      Stands (.fault (.unexpected c)) [c] rest
  /-- A string that is open where the text ends. -/
  | unterminated {contents : List Char} (inside : '"' ∉ contents) :
      Stands (.fault .unterminated) ('"' :: contents) []

theorem comment_iff {c : Char} {after : List Char} :
    ['/', '/'] <+: c :: after ↔ c = '/' ∧ after.head? = some '/' := by
  constructor
  · intro front
    obtain ⟨rfl, second⟩ := List.cons_prefix_cons.mp front
    cases after with
    | nil => exact absurd (List.prefix_nil.mp second) (List.cons_ne_nil _ _)
    | cons d rest =>
      obtain ⟨rfl, -⟩ := List.cons_prefix_cons.mp second
      exact ⟨rfl, rfl⟩
  · rintro ⟨rfl, head⟩
    cases after with
    | nil => cases head
    | cons d rest =>
      cases head
      exact ⟨rest, rfl⟩

theorem stands_of_token {c : Char} {after : List Char} {kind : Kind}
    (piece : (munch c after).piece = .token kind) :
    Stands (.token kind) (munch c after).taken (munch c after).rest := by
  have whole := munch_append c after
  have noComment : ¬(c = '/' ∧ after.head? = some '/') := by
    rintro ⟨rfl, slash⟩
    rw [munch_comment slash] at piece
    cases piece
  refine .token ⟨lexeme_of_munch piece, List.prefix_append _ _, ?_⟩ (by rwa [whole, comment_iff])
  rintro other otherKind valid ⟨rest, front⟩
  rw [whole] at front
  rcases munch_reaches valid front with comment | ⟨_, _, longer⟩
  · exact absurd comment noComment
  · exact longer

theorem stands_munchComment (line : List Char) :
    Stands .gap (munchComment '/' ('/' :: line)).taken (munchComment '/' ('/' :: line)).rest := by
  unfold munchComment
  rw [List.takeWhile_cons_of_pos (by decide), List.dropWhile_cons_of_pos (by decide)]
  refine .comment ?_ ?_
  · intro member
    exact absurd (List.mem_takeWhile_imp member) (by decide)
  · intro d first
    have stops := List.head?_dropWhile_not (· != '\n') line
    rw [first] at stops
    simpa using stops

/-- An operator stands there, or a character that begins nothing. -/
theorem stands_munch_operative {c : Char} {after : List Char} (operative : Operative c)
    (noComment : ¬(c = '/' ∧ after.head? = some '/')) :
    Stands (munch c after).piece (munch c after).taken (munch c after).rest := by
  have read := munch_operative operative noComment
  cases found : readSymbol? (c :: after) with
  | some front =>
    have isToken : (munch c after).piece = .token (.symbol front.1) := by
      rw [read, found]
    rw [isToken]
    exact stands_of_token isToken
  | none =>
    have isFault : munch c after = ⟨.fault (.unexpected c), [c], after⟩ := by
      rw [read, found]
    rw [isFault]
    refine .unexpected operative.blank operative.quote ?_
    rintro lexeme kind valid ⟨rest, front⟩
    rcases munch_reaches valid front with slashes | ⟨other, isToken, -⟩
    · exact noComment slashes
    · rw [isFault] at isToken
      cases isToken

/-- What is read stands there. -/
theorem stands_munch (c : Char) (after : List Char) :
    Stands (munch c after).piece (munch c after).taken (munch c after).rest := by
  rcases class_cases c with blank | rfl | digit | start | operative
  · rw [munch_blank blank]
    exact .blank after blank
  · by_cases closed : '"' ∈ after
    · obtain ⟨contents, rest, rfl, inside⟩ := List.eq_append_cons_of_mem closed
      have read := munchString_closed inside rest
      rw [← munch_quote] at read
      have isToken := congrArg Munch.piece read
      rw [isToken]
      exact stands_of_token isToken
    · rw [munch_quote, munchString_unclosed closed]
      exact .unterminated closed
  · obtain ⟨kind, isToken, -⟩ := @munchNumber_lexeme c after digit
    rw [← munch_digit digit] at isToken
    rw [isToken]
    exact stands_of_token isToken
  · obtain ⟨kind, isToken, -⟩ := @munchWord_lexeme c after start
    rw [← munch_name start] at isToken
    rw [isToken]
    exact stands_of_token isToken
  · by_cases comment : c = '/' ∧ after.head? = some '/'
    · obtain ⟨rfl, slash⟩ := comment
      obtain ⟨line, rfl⟩ := List.head?_eq_some_iff.mp slash
      rw [munch_comment slash]
      exact stands_munchComment line
    · exact stands_munch_operative operative comment

theorem munch_of_comment {line rest : List Char} (oneLine : '\n' ∉ line)
    (ends : ∀ d ∈ rest.head?, d = '\n') :
    munch '/' ('/' :: (line ++ rest)) = ⟨.gap, '/' :: '/' :: line, rest⟩ := by
  have all : ∀ d ∈ '/' :: line, (d != '\n') = true := by
    intro d member
    rw [bne_iff_ne]
    rintro rfl
    rcases List.mem_cons.mp member with impossible | inLine
    · cases impossible
    · exact oneLine inLine
  have stops : rest.takeWhile (· != '\n') = [] ∧ rest.dropWhile (· != '\n') = rest := by
    cases rest with
    | nil => exact ⟨rfl, rfl⟩
    | cons d more =>
      have newline := ends d rfl
      subst newline
      exact ⟨List.takeWhile_cons_of_neg (by decide), List.dropWhile_cons_of_neg (by decide)⟩
  rw [munch_comment rfl]
  unfold munchComment
  rw [← List.cons_append, takeWhile_all all, dropWhile_all all, stops.1, stops.2, List.append_nil]

/-- The longest lexeme at the front of a text is what is read there. -/
theorem munch_of_longest {c : Char} {after lexeme rest : List Char} {kind : Kind}
    (front : lexeme ++ rest = c :: after) (longest : Longest (lexeme ++ rest) lexeme kind)
    (noComment : ¬['/', '/'] <+: lexeme ++ rest) : munch c after = ⟨.token kind, lexeme, rest⟩ := by
  have whole := munch_append c after
  rw [front, comment_iff] at noComment
  rcases munch_reaches longest.valid front with comment | ⟨other, isToken, longer⟩
  · exact absurd comment noComment
  · have valid := lexeme_of_munch isToken
    have shorter := longest.longest _ other valid ⟨(munch c after).rest, whole.trans front.symm⟩
    obtain ⟨same, others⟩ := List.append_inj (whole.trans front.symm) (by omega)
    rw [same] at valid
    have kinds := valid.kind_eq longest.valid
    subst kinds
    cases read : munch c after with
    | mk piece taken rest =>
      rw [read] at isToken same others
      cases isToken
      cases same
      cases others
      rfl

/-- Where nothing begins, and there is neither a blank nor a string, the character is read as a fault. -/
theorem munch_of_none {c : Char} {after : List Char} (blank : isBlank c = false) (quote : c ≠ '"')
    (none : ∀ lexeme kind, Lexeme lexeme kind → ¬lexeme <+: c :: after) :
    munch c after = ⟨.fault (.unexpected c), [c], after⟩ := by
  have stands := stands_munch c after
  have whole := munch_append c after
  cases read : munch c after with
  | mk piece taken more =>
    rw [read] at stands whole
    dsimp only at stands whole
    cases stands with
    | blank more isBlank =>
      cases whole
      rw [blank] at isBlank
      cases isBlank
    | comment =>
      cases whole
      exact absurd ⟨_, rfl⟩ (none ['/'] (.symbol .slash) (.symbol .slash))
    | token longest => exact absurd (whole ▸ longest.front) (none _ _ longest.valid)
    | unexpected =>
      cases whole
      rfl
    | unterminated =>
      cases whole
      exact absurd rfl quote

/-- Nothing else stands there: a layout has no choice. -/
theorem munch_of_stands {piece : Piece} {taken rest : List Char} (stands : Stands piece taken rest)
    {c : Char} {after : List Char} (front : taken ++ rest = c :: after) :
    munch c after = ⟨piece, taken, rest⟩ := by
  cases stands with
  | blank rest blank =>
    obtain ⟨rfl, rfl⟩ := List.cons.inj front
    exact munch_blank blank
  | comment oneLine ends =>
    obtain ⟨rfl, rfl⟩ := List.cons.inj front
    exact munch_of_comment oneLine ends
  | token longest noComment => exact munch_of_longest front longest noComment
  | unexpected blank quote none =>
    obtain ⟨rfl, rfl⟩ := List.cons.inj front
    exact munch_of_none blank quote none
  | @unterminated contents inside =>
    rw [List.append_nil] at front
    obtain ⟨rfl, rfl⟩ := List.cons.inj front
    rw [munch_quote, munchString_unclosed inside]

theorem Stands.taken_ne_nil {piece : Piece} {taken rest : List Char}
    (stands : Stands piece taken rest) : taken ≠ [] := by
  cases stands with
  | token longest => exact longest.valid.ne_nil
  | _ => exact List.cons_ne_nil _ _

/-! ### Layouts -/

/-- A stretch of a text: what it is, the position where it begins, and how it is written. -/
structure Tile where
  piece : Piece
  start : Nat
  taken : List Char

/-- The position just after a tile. -/
def Tile.stop (tile : Tile) : Nat :=
  tile.start + byteLength tile.taken

def Tile.item? (tile : Tile) : Option Item :=
  tile.piece.item? tile.taken tile.start tile.stop

/-- Tiles that cover a text whose first byte has the position `start`, each of them where the one before
it ends. -/
inductive Tiled : Nat → List Char → List Tile → Prop
  | done (start : Nat) : Tiled start [] []
  | next {start : Nat} {piece : Piece} {taken rest : List Char} {tiles : List Tile}
      (stands : Stands piece taken rest) (later : Tiled (start + byteLength taken) rest tiles) :
      Tiled start (taken ++ rest) (⟨piece, start, taken⟩ :: tiles)

/-- The layout that reading a text goes along. -/
def tiling (start : Nat) (text : List Char) : List Tile :=
  match text with
  | [] => []
  | c :: after =>
    ⟨(munch c after).piece, start, (munch c after).taken⟩ ::
      tiling (start + byteLength (munch c after).taken) (munch c after).rest
termination_by text.length
decreasing_by exact munch_rest_length c after

theorem tiling_nil (start : Nat) : tiling start [] = [] := by
  rw [tiling]

theorem tiling_cons (start : Nat) (c : Char) (after : List Char) :
    tiling start (c :: after) = ⟨(munch c after).piece, start, (munch c after).taken⟩ ::
      tiling (start + byteLength (munch c after).taken) (munch c after).rest := by
  rw [tiling]

theorem tiled_tiling (start : Nat) (text : List Char) : Tiled start text (tiling start text) := by
  induction text using munch_induction generalizing start with
  | nil =>
      rw [tiling_nil]
      exact .done start
  | cons c after ih =>
      have laid := Tiled.next (stands_munch c after) (ih (start + byteLength (munch c after).taken))
      rw [munch_append] at laid
      rw [tiling_cons]
      exact laid

theorem Tiled.eq_tiling {start : Nat} {text : List Char} {tiles : List Tile}
    (tiled : Tiled start text tiles) : tiles = tiling start text := by
  induction tiled with
  | done start => exact (tiling_nil start).symm
  | @next start piece taken rest tiles stands later ih =>
    obtain ⟨c, after, whole⟩ := List.exists_cons_of_ne_nil (List.append_ne_nil_of_left_ne_nil
      stands.taken_ne_nil rest)
    rw [whole, tiling_cons, munch_of_stands stands whole, ← ih]

/-- The items of a text are those of its tiles. -/
theorem body_eq_items (start : Nat) (text : List Char) :
    body start text = (tiling start text).filterMap Tile.item? := by
  induction text using munch_induction generalizing start with
  | nil =>
      rw [body_nil, tiling_nil]
      rfl
  | cons c after ih =>
      rw [body_cons, tiling_cons, List.filterMap_cons, ih]
      unfold Tile.item? Tile.stop
      cases (munch c after).piece.item? _ _ _ <;> rfl

/-- A tile at its place in the text. -/
theorem Tiled.place {start : Nat} {text : List Char} {tiles : List Tile}
    (tiled : Tiled start text tiles) : ∀ tile ∈ tiles, ∃ before rest,
      text = before ++ tile.taken ++ rest ∧ tile.start = start + byteLength before ∧
        Stands tile.piece tile.taken rest := by
  induction tiled with
  | done =>
    intro tile member
    cases member
  | @next start piece taken rest tiles stands later ih =>
    intro tile member
    rcases List.mem_cons.mp member with rfl | member
    · exact ⟨[], rest, rfl, rfl, stands⟩
    · obtain ⟨before, more, whole, place, others⟩ := ih tile member
      refine ⟨taken ++ before, more, ?_, ?_, others⟩
      · rw [whole, List.append_assoc, List.append_assoc, List.append_assoc]
      · rw [Text.byteLength_append]
        omega

theorem Tiled.start_lt_stop {start : Nat} {text : List Char} {tiles : List Tile}
    (tiled : Tiled start text tiles) {tile : Tile} (member : tile ∈ tiles) :
    tile.start < tile.stop := by
  obtain ⟨_, _, -, -, stands⟩ := tiled.place tile member
  have some := Text.byteLength_pos stands.taken_ne_nil
  unfold Tile.stop
  omega

theorem Tiled.ordered {start : Nat} {text : List Char} {tiles : List Tile}
    (tiled : Tiled start text tiles) : tiles.Pairwise fun one two => one.stop ≤ two.start := by
  induction tiled with
  | done => exact .nil
  | next stands later ih =>
    refine .cons ?_ ih
    intro tile member
    obtain ⟨before, rest, -, place, -⟩ := later.place tile member
    rw [place]
    exact Nat.le_add_right _ _

/-- Different tiles do not overlap. -/
theorem Tiled.apart {start : Nat} {text : List Char} {tiles : List Tile}
    (tiled : Tiled start text tiles) {one two : Tile} (first : one ∈ tiles) (second : two ∈ tiles)
    (different : one ≠ two) : one.stop ≤ two.start ∨ two.stop ≤ one.start := by
  have apart : tiles.Pairwise fun one two => one.stop ≤ two.start ∨ two.stop ≤ one.start :=
    tiled.ordered.imp Or.inl
  have symmetric : Std.Symm fun one two : Tile => one.stop ≤ two.start ∨ two.stop ≤ one.start :=
    ⟨fun _ _ => Or.symm⟩
  exact apart.forall first second different

/-- Every byte of the text is in a tile. -/
theorem Tiled.covers {start : Nat} {text : List Char} {tiles : List Tile}
    (tiled : Tiled start text tiles) {position : Nat} (first : start ≤ position)
    (last : position < start + byteLength text) :
    ∃ tile ∈ tiles, tile.start ≤ position ∧ position < tile.stop := by
  induction tiled with
  | done =>
    rw [Text.byteLength_nil] at last
    omega
  | @next start piece taken rest tiles stands later ih =>
    rw [Text.byteLength_append] at last
    by_cases here : position < start + byteLength taken
    · exact ⟨_, List.mem_cons_self, first, here⟩
    · obtain ⟨tile, member, bounds⟩ := ih (by omega) (by omega)
      exact ⟨tile, List.mem_cons_of_mem _ member, bounds⟩

/-! ### Items at their places -/

def Item.span : Item → Span
  | .token t => t.span
  | .error e => e.span

/-- The bytes of an item are those of its tile. -/
theorem Tile.span_of_item? {tile : Tile} {item : Item} (found : tile.item? = some item)
    (some : tile.taken ≠ []) : item.span = ⟨tile.start, byteLength tile.taken⟩ := by
  have positive := Text.byteLength_pos some
  have longest : max (byteLength tile.taken) 1 = byteLength tile.taken := by omega
  unfold Tile.item? Tile.stop at found
  cases piece : tile.piece with
  | gap =>
    rw [piece] at found
    cases found
  | token kind =>
    rw [piece] at found
    cases found
    simp only [Item.span, Token.span, Text.byteLength_ofList, Nat.add_sub_cancel, longest]
  | fault fault =>
    rw [piece] at found
    cases found
    simp only [Item.span, Nat.add_sub_cancel_left, longest]

theorem Tile.token_of_item? {tile : Tile} {t : Token} (found : tile.item? = some (.token t)) :
    tile.piece = .token t.kind ∧ t.lexeme.toList = tile.taken ∧ t.offset = tile.stop := by
  unfold Tile.item? at found
  cases piece : tile.piece with
  | token kind =>
    rw [piece] at found
    cases found
    exact ⟨rfl, String.toList_ofList, rfl⟩
  | gap =>
    rw [piece] at found
    cases found
  | fault fault =>
    rw [piece] at found
    cases found

theorem Tile.fault_of_item? {tile : Tile} {e : LexicalError} (found : tile.item? = some (.error e)) :
    tile.piece = .fault e.fault := by
  unfold Tile.item? at found
  cases piece : tile.piece with
  | fault fault =>
    rw [piece] at found
    cases found
    rfl
  | gap =>
    rw [piece] at found
    cases found
  | token kind =>
    rw [piece] at found
    cases found

theorem Tile.gap_iff (tile : Tile) : tile.piece = .gap ↔ tile.item? = none := by
  unfold Tile.item? Piece.item?
  cases tile.piece with
  | gap => exact ⟨fun _ => rfl, fun _ => rfl⟩
  | token kind => exact ⟨nofun, nofun⟩
  | fault fault => exact ⟨nofun, nofun⟩

/-- A stretch of a source that begins at a position: it can be cut out between two characters. -/
structure Excerpt (base : Nat) (source : List Char) (start : Nat) (before taken rest : List Char) :
    Prop where
  whole : source = before ++ taken ++ rest
  place : start = base + byteLength before
  slice : slice? source (start - base) (byteLength taken) = some taken

theorem excerpt_of_place {base start : Nat} {source before taken rest : List Char}
    (whole : source = before ++ taken ++ rest) (place : start = base + byteLength before) :
    Excerpt base source start before taken rest where
  whole := whole
  place := place
  slice := by
    rw [whole, place, Nat.add_sub_cancel_left]
    exact Text.slice?_between before taken rest

section Items

variable {base : Nat} {source : List Char} {tiles : List Tile} (tiled : Tiled base source tiles)

include tiled

/-- An item has a tile, and its bytes are those of the tile. -/
theorem Tiled.tile_of_item {item : Item} (member : item ∈ tiles.filterMap Tile.item?) :
    ∃ tile ∈ tiles, tile.item? = some item ∧ item.span = ⟨tile.start, byteLength tile.taken⟩ := by
  obtain ⟨tile, inTiles, found⟩ := List.mem_filterMap.mp member
  obtain ⟨_, _, -, -, stands⟩ := tiled.place tile inTiles
  exact ⟨tile, inTiles, found, Tile.span_of_item? found stands.taken_ne_nil⟩

theorem Tiled.items_ordered : (tiles.filterMap Tile.item?).Pairwise fun one two =>
    one.span.start + one.span.length ≤ two.span.start := by
  have spans (tile : Tile) (member : tile ∈ tiles) (item : Item) (found : tile.item? = some item) :
      item.span = ⟨tile.start, byteLength tile.taken⟩ := by
    obtain ⟨_, _, -, -, stands⟩ := tiled.place tile member
    exact Tile.span_of_item? found stands.taken_ne_nil
  rw [List.pairwise_filterMap]
  refine tiled.ordered.imp_of_mem ?_
  intro one two first second before item found other alsoFound
  rw [spans one first item found, spans two second other alsoFound]
  exact before

theorem Tiled.token_excerpt {t : Token} (member : .token t ∈ tiles.filterMap Tile.item?) :
    ∃ before rest, Excerpt base source t.span.start before t.lexeme.toList rest ∧
      t.offset = t.span.start + t.span.length ∧
      Longest (t.lexeme.toList ++ rest) t.lexeme.toList t.kind := by
  obtain ⟨tile, inTiles, found, span⟩ := tiled.tile_of_item member
  obtain ⟨piece, text, offset⟩ := Tile.token_of_item? found
  obtain ⟨before, rest, whole, place, stands⟩ := tiled.place tile inTiles
  change t.span = _ at span
  rw [text, span]
  refine ⟨before, rest, excerpt_of_place whole place, offset, ?_⟩
  rw [piece] at stands
  cases stands with
  | token longest => exact longest

theorem Tiled.error_excerpt {e : LexicalError} (member : .error e ∈ tiles.filterMap Tile.item?) :
    ∃ before taken rest, Excerpt base source e.span.start before taken rest ∧
      e.span.length = byteLength taken ∧ Stands (.fault e.fault) taken rest := by
  obtain ⟨tile, inTiles, found, span⟩ := tiled.tile_of_item member
  obtain ⟨before, rest, whole, place, stands⟩ := tiled.place tile inTiles
  change e.span = _ at span
  rw [Tile.fault_of_item? found] at stands
  rw [span]
  exact ⟨before, tile.taken, rest, excerpt_of_place whole place, rfl, stands⟩

/-- The bytes of no item are those of the gaps. -/
theorem Tiled.uncovered_iff {position : Nat} (first : base ≤ position)
    (last : position < base + byteLength source) :
    (∀ item ∈ tiles.filterMap Tile.item?, ¬(item.span.start ≤ position ∧
        position < item.span.start + item.span.length)) ↔
      ∃ tile ∈ tiles, tile.piece = .gap ∧ tile.start ≤ position ∧ position < tile.stop := by
  constructor
  · intro uncovered
    obtain ⟨tile, member, bounds⟩ := tiled.covers first last
    refine ⟨tile, member, tile.gap_iff.mpr ?_, bounds⟩
    by_contra isItem
    obtain ⟨item, found⟩ := Option.ne_none_iff_exists'.mp isItem
    obtain ⟨_, _, -, -, stands⟩ := tiled.place tile member
    have span := Tile.span_of_item? found stands.taken_ne_nil
    refine uncovered item (List.mem_filterMap.mpr ⟨tile, member, found⟩) ?_
    rw [span]
    exact bounds
  · rintro ⟨gap, inTiles, isGap, bounds⟩ item member covered
    obtain ⟨tile, alsoIn, found, span⟩ := tiled.tile_of_item member
    have different : gap ≠ tile := by
      rintro rfl
      rw [gap.gap_iff.mp isGap] at found
      cases found
    have disjoint := tiled.apart inTiles alsoIn different
    rw [span] at covered
    obtain ⟨low, high⟩ := covered
    change tile.start ≤ position at low
    change position < tile.stop at high
    omega

end Items

/-- Whatever is read as a token is a lexeme. -/
theorem lexeme_of_body {start : Nat} {text : List Char} {t : Token}
    (member : .token t ∈ body start text) : Lexeme t.lexeme.toList t.kind := by
  rw [body_eq_items] at member
  obtain ⟨_, _, -, -, longest⟩ := (tiled_tiling start text).token_excerpt member
  exact longest.valid

/-- Reading a source follows the one layout there is. Its items come in the order of the text, do not
overlap, and end with the only end of the input. Each token is cut out just before its offset and is the
longest lexeme there, a keyword exactly if it is in the table; each fault is a character that begins
nothing, or a string that is never closed; and the bytes of no item are those of blanks and comments. -/
theorem scan_lays_out (base : Nat) (source : List Char) : ∃ tiles items,
    (∀ others, Tiled base source others ↔ others = tiles) ∧
    items = tiles.filterMap Tile.item? ∧
    scan base source = items ++ [.token (atEnd (base + byteLength source))] ∧
    items.Pairwise (fun one two => one.span.start + one.span.length ≤ two.span.start) ∧
    (∀ t, .token t ∈ items → t.isEnd = false ∧ ∃ before rest,
      Excerpt base source t.span.start before t.lexeme.toList rest ∧
      t.offset = t.span.start + t.span.length ∧
      Longest (t.lexeme.toList ++ rest) t.lexeme.toList t.kind ∧
      ∀ k, t.kind = .keyword k ↔ k.text = t.lexeme) ∧
    (∀ e, .error e ∈ items → ∃ before taken rest,
      Excerpt base source e.span.start before taken rest ∧ e.span.length = byteLength taken ∧
      Stands (.fault e.fault) taken rest) ∧
    (∀ tile ∈ tiles, ∃ before rest, Excerpt base source tile.start before tile.taken rest ∧
      Stands tile.piece tile.taken rest) ∧
    ∀ position, base ≤ position → position < base + byteLength source →
      ((∀ item ∈ items, ¬(item.span.start ≤ position ∧
        position < item.span.start + item.span.length)) ↔
      ∃ tile ∈ tiles, tile.piece = .gap ∧ tile.start ≤ position ∧ position < tile.stop) := by
  have tiled := tiled_tiling base source
  refine ⟨tiling base source, _, ?_, rfl, ?_, tiled.items_ordered, ?_, fun _ => tiled.error_excerpt,
    ?_, fun _ => tiled.uncovered_iff⟩
  · intro others
    constructor
    · exact Tiled.eq_tiling
    · rintro rfl
      exact tiled
  · rw [scan_eq_body, body_eq_items]
  · intro t member
    obtain ⟨before, rest, excerpt, offset, longest⟩ := tiled.token_excerpt member
    refine ⟨?_, before, rest, excerpt, offset, longest, ?_⟩
    · rw [← body_eq_items] at member
      exact isEnd_of_body member
    · intro k
      rw [longest.valid.keyword_iff, String.ofList_toList]
  · intro tile member
    obtain ⟨before, rest, whole, place, stands⟩ := tiled.place tile member
    exact ⟨before, rest, excerpt_of_place whole place, stands⟩

end Lox.Token
