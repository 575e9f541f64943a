import Lox.Proofs.Token.Tiling

set_option autoImplicit false

/-! Texts with the same words and other gaps between them. Blanks and comments can stand before, between and
behind the lexemes of tokens in any way, as long as a blank follows each lexeme but the last: such a text is
read as these tokens again. -/

namespace Lox.Token

open Text (byteLength)

/-! ### Gaps -/

/-- What keeps words apart: one of four characters of ASCII, or one beyond ASCII with the property
White_Space. -/
def Blank (c : Char) : Prop :=
  c = ' ' ∨ c = '\t' ∨ c = '\r' ∨ c = '\n' ∨ Text.isWideBlank c = true

/-- Blanks and comments, each comment with the newline that ends it. -/
inductive Gap : List Char → Prop
  | nil : Gap []
  | blank {c : Char} {rest : List Char} (blank : Blank c) (later : Gap rest) : Gap (c :: rest)
  | comment {line rest : List Char} (oneLine : '\n' ∉ line) (later : Gap rest) :
      Gap ('/' :: '/' :: (line ++ '\n' :: rest))

theorem Blank.isBlank {c : Char} (blank : Blank c) : isBlank c = true := by
  unfold Token.isBlank
  rcases blank with rfl | rfl | rfl | rfl | wide
  · rfl
  · rfl
  · rfl
  · rfl
  · rw [wide, Bool.or_true]

theorem not_isAlphanum_of_wide {c : Char} (wide : 0x80 ≤ c.toNat) : c.isAlphanum = false := by
  rw [Bool.eq_false_iff]
  intro alphanum
  rcases (Bool.or_eq_true _ _).mp alphanum with letter | digit
  · have bounds := isAlpha_bounds letter
    omega
  · have bounds := isDigit_bounds digit
    omega

theorem wideBlank_endsLine {c : Char} (blank : Text.isWideBlank c = true) : EndsLine c := by
  have wide : 0x80 ≤ c.toNat := of_decide_eq_true ((Bool.and_eq_true _ _).mp blank).1
  have alphanum := not_isAlphanum_of_wide wide
  have other (x : Char) (ascii : x.toNat < 0x80) : c ≠ x := by
    rintro rfl
    omega
  constructor
  case name =>
    obtain ⟨letter, numeral⟩ := Text.not_wide_of_isWideBlank blank
    unfold isNamePart
    rw [alphanum, letter, numeral, beq_eq_false_iff_ne.mpr (other '_' (by decide))]
    rfl
  case digit => exact ((Bool.or_eq_false_iff ..).mp alphanum).2
  all_goals exact other _ (by decide)

/-- No token goes on with a blank. -/
theorem Blank.endsLine {c : Char} (blank : Blank c) : EndsLine c := by
  rcases blank with rfl | rfl | rfl | rfl | wide
  · constructor <;> decide
  · constructor <;> decide
  · exact return_endsLine
  · exact newline_endsLine
  · exact wideBlank_endsLine wide

/-- A gap has no items, and what stands behind it is read as if the text began there. -/
theorem body_gap {gap : List Char} (isGap : Gap gap) (start : Nat) (text : List Char) :
    body start (gap ++ text) = body (start + byteLength gap) text := by
  induction isGap generalizing start with
  | nil => rfl
  | @blank c rest blank later ih =>
    rw [List.cons_append, body_of_gap (munch_blank blank.isBlank), ih, Nat.add_assoc,
      ← Text.byteLength_append, List.singleton_append]
  | @comment line rest oneLine later ih =>
    -- The comment ends before its newline, which is a blank of its own.
    have comment : munch '/' ('/' :: (line ++ '\n' :: (rest ++ text))) =
        ⟨.gap, '/' :: '/' :: line, '\n' :: (rest ++ text)⟩ := by
      refine munch_of_comment oneLine ?_
      rintro d ⟨⟩
      rfl
    have newline : munch '\n' (rest ++ text) = ⟨.gap, ['\n'], rest ++ text⟩ := munch_blank rfl
    have whole : '/' :: '/' :: (line ++ '\n' :: rest) = '/' :: '/' :: line ++ ['\n'] ++ rest := by
      simp only [List.append_assoc, List.cons_append, List.nil_append]
    rw [whole, Text.byteLength_append, Text.byteLength_append]
    simp only [List.append_assoc, List.cons_append, List.nil_append]
    rw [body_of_gap comment, body_of_gap newline, ih]
    simp only [Nat.add_assoc]

/-! ### Words with gaps between them -/

/-- The lexemes of tokens in their order, a gap behind each. A gap begins with a blank, and only the last one
can be empty. -/
inductive Spaced : List Token → List Char → Prop
  | nil : Spaced [] []
  | cons {t : Token} {tokens : List Token} {gap text : List Char} (isGap : Gap gap)
      (opens : ∀ c ∈ gap.head?, Blank c) (apart : tokens ≠ [] → gap ≠ [])
      (later : Spaced tokens text) : Spaced (t :: tokens) (t.lexeme.toList ++ (gap ++ text))

/-- What stands behind a word begins with a blank, if there is anything. -/
theorem Spaced.behind {tokens : List Token} {gap text : List Char} (later : Spaced tokens text)
    (opens : ∀ c ∈ gap.head?, Blank c) (apart : tokens ≠ [] → gap ≠ []) :
    ∀ c ∈ (gap ++ text).head?, Blank c := by
  cases gap with
  | nil =>
    have none : tokens = [] := by_contra fun some => apart some rfl
    subst none
    cases later
    nofun
  | cons d rest => exact opens

/-- A lexeme is read as what it is where the text ends, and in front of a blank. -/
theorem munch_before_blank {c : Char} {after rest : List Char} {kind : Kind}
    (valid : Lexeme (c :: after) kind) (opens : ∀ d ∈ rest.head?, Blank d) :
    munch c (after ++ rest) = ⟨.token kind, c :: after, rest⟩ := by
  have alone := munch_lexeme valid rfl
  cases rest with
  | nil => rw [List.append_nil, alone]
  | cons d more =>
    have closed : (munch c after).piece ≠ .fault .unterminated := by
      rw [alone]
      nofun
    have noComment (slash : c = '/') (next : after.head? = some '/') : d = '\n' ∨ '\n' ∈ after :=
      absurd (comment_iff.mpr ⟨slash, next⟩) valid.noComment
    rw [munch_cut (opens d rfl).endsLine closed noComment, alone]
    rfl

/-- Words with gaps between them are read word for word. -/
theorem body_spaced {tokens : List Token} {text : List Char} (spaced : Spaced tokens text)
    (valid : ∀ t ∈ tokens, Lexeme t.lexeme.toList t.kind) (start : Nat) : ∃ again : List Token,
      body start text = again.map .token ∧ again.map (·.kind) = tokens.map (·.kind) ∧
        again.map (·.lexeme) = tokens.map (·.lexeme) := by
  induction spaced generalizing start with
  | nil => exact ⟨[], body_nil start, rfl, rfl⟩
  | @cons t tokens gap text isGap opens apart later ih =>
    have word := valid t List.mem_cons_self
    obtain ⟨c, after, spelled⟩ := List.exists_cons_of_ne_nil word.ne_nil
    rw [spelled] at word
    have read := munch_before_blank word (later.behind opens apart)
    have others (other : Token) (member : other ∈ tokens) :=
      valid other (List.mem_cons_of_mem t member)
    obtain ⟨again, items, kinds, lexemes⟩ :=
      ih others (start + byteLength (c :: after) + byteLength gap)
    refine ⟨⟨t.kind, t.lexeme, start + byteLength (c :: after)⟩ :: again, ?_, ?_, ?_⟩
    · rw [spelled, List.cons_append, body_of_token read, body_gap isGap, items, ← spelled,
        String.ofList_toList]
      rfl
    · rw [List.map_cons, List.map_cons, kinds]
    · rw [List.map_cons, List.map_cons, lexemes]

/-- Tokens that are read without a fault are read again from every text with their lexemes, whatever blanks
and comments stand around these: as many tokens and no fault, of the same kinds, values of literals
included, with the same lexemes. -/
theorem scan_of_spaced {base stop : Nat} {source : List Char} {tokens : List Token}
    (scanned : scan base source = (tokens ++ [atEnd stop]).map .token) {lead text : List Char}
    (leading : Gap lead) (spaced : Spaced tokens text) (other : Nat) : ∃ again : List Token,
      scan other (lead ++ text) =
        (again ++ [atEnd (other + byteLength (lead ++ text))]).map .token ∧
      again.map (·.kind) = tokens.map (·.kind) ∧
      again.map (·.lexeme) = tokens.map (·.lexeme) := by
  have valid (t : Token) (member : t ∈ tokens) : Lexeme t.lexeme.toList t.kind := by
    rw [scan_eq_body, List.map_append] at scanned
    have items := (List.append_inj' scanned rfl).1
    exact lexeme_of_body (items ▸ List.mem_map_of_mem member)
  obtain ⟨again, items, kinds, lexemes⟩ := body_spaced spaced valid (other + byteLength lead)
  refine ⟨again, ?_, kinds, lexemes⟩
  rw [scan_eq_body, body_gap leading, items, List.map_append]
  rfl

/-- A name before a blank of three bytes, a slash before a comment, digits before a point, and a string that
holds two slashes and a newline. -/
theorem scan_of_spaced_around_comments :
    let tokens : List Token := [⟨.identifier, "né", 3⟩, ⟨.symbol .slash, "/", 4⟩,
      ⟨.number (numberValue ['1', '2'] []), "12", 6⟩, ⟨.symbol .dot, ".", 7⟩,
      ⟨.string "//\n", "\"//\n\"", 12⟩]
    let lead := "// é\n".toList
    let text := "né".toList ++ ("\u3000".toList ++ ("/".toList ++ (" //\n".toList ++
      ("12".toList ++ ("\t".toList ++ (".".toList ++ ("\r\n".toList ++
      ("\"//\n\"".toList ++ ([] ++ [])))))))))
    scan 0 "né/12.\"//\n\"".toList = (tokens ++ [atEnd 12]).map .token ∧
      Gap lead ∧ Spaced tokens text ∧ ∃ again : List Token,
        scan 7 (lead ++ text) = (again ++ [atEnd (7 + byteLength (lead ++ text))]).map .token ∧
        again.map (·.kind) = tokens.map (·.kind) ∧
        again.map (·.lexeme) = tokens.map (·.lexeme) := by
  intro tokens lead text
  have scanned : scan 0 "né/12.\"//\n\"".toList = (tokens ++ [atEnd 12]).map .token := rfl
  have opens {c : Char} (blank : Blank c) {rest : List Char} : ∀ d ∈ (c :: rest).head?, Blank d := by
    rintro d ⟨⟩
    exact blank
  have space : Blank ' ' := .inl rfl
  have tab : Blank '\t' := .inr (.inl rfl)
  have carriageReturn : Blank '\r' := .inr (.inr (.inl rfl))
  have newline : Blank '\n' := .inr (.inr (.inr (.inl rfl)))
  have ideographic : Blank '\u3000' := .inr (.inr (.inr (.inr (by decide))))
  have leading : Gap lead := .comment (show '\n' ∉ " é".toList by decide) .nil
  have comment : Gap "//\n".toList := .comment (List.not_mem_nil : '\n' ∉ []) .nil
  have spaced : Spaced tokens text :=
    .cons (.blank ideographic .nil) (opens ideographic) nofun <|
    .cons (.blank space comment) (opens space) nofun <|
    .cons (.blank tab .nil) (opens tab) nofun <|
    .cons (.blank carriageReturn (.blank newline .nil)) (opens carriageReturn) nofun <|
    .cons .nil nofun (fun some => absurd rfl some) .nil
  exact ⟨scanned, leading, spaced, scan_of_spaced scanned leading spaced 7⟩

end Lox.Token
