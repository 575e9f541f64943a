import Lox.Proofs.Token.Cut

set_option autoImplicit false

/-! The lexical grammar, apart from the reader: what a lexeme is and which kind of token it stands for. The
reader takes a whole lexeme as what it is. In front of further text it never stops before the end of a
lexeme, so that what it takes is the longest one that begins there. -/

namespace Lox.Text

theorem inRanges_mem {point : Nat} {ranges : List (Nat × Nat)} (inside : inRanges point ranges = true) :
    ∃ range ∈ ranges, range.1 ≤ point ∧ point ≤ range.2 := by
  induction ranges with
  | nil => cases inside
  | cons range rest ih =>
      obtain ⟨low, high⟩ := range
      rw [inRanges] at inside
      split at inside
      · cases inside
      · rcases (Bool.or_eq_true _ _).mp inside with here | later
        · exact ⟨(low, high), List.mem_cons_self, by omega, of_decide_eq_true here⟩
        · obtain ⟨range, member, bounds⟩ := ih later
          exact ⟨range, List.mem_cons_of_mem _ member, bounds⟩

/-- A table of ranges without a point in common with the ranges of another. -/
theorem inRanges_apart {ranges others : List (Nat × Nat)} (apart : ∀ range ∈ ranges,
    ∀ more ≤ range.2 - range.1, inRanges (range.1 + more) others = false)
    {point : Nat} (inside : inRanges point ranges = true) : inRanges point others = false := by
  obtain ⟨range, member, low, high⟩ := inRanges_mem inside
  have none := apart range member (point - range.1) (by omega)
  rwa [Nat.add_sub_cancel' low] at none

theorem blankRanges_not_alphabetic : ∀ range ∈ blankRanges,
    ∀ more ≤ range.2 - range.1, inRanges (range.1 + more) alphabeticRanges = false := by
  decide +kernel

theorem blankRanges_not_numeric : ∀ range ∈ blankRanges,
    ∀ more ≤ range.2 - range.1, inRanges (range.1 + more) numericRanges = false := by
  decide +kernel

/-- Beyond ASCII no blank is a letter or a numeral. -/
theorem not_wide_of_isWideBlank {c : Char} (blank : isWideBlank c = true) :
    isWideLetter c = false ∧ isWideNumeric c = false := by
  have inBlanks := ((Bool.and_eq_true _ _).mp blank).2
  unfold isWideLetter isWideNumeric
  rw [inRanges_apart blankRanges_not_alphabetic inBlanks,
    inRanges_apart blankRanges_not_numeric inBlanks]
  exact ⟨Bool.and_false _, Bool.and_false _⟩

theorem not_isWideBlank_of_isWideLetter {c : Char} (letter : isWideLetter c = true) :
    isWideBlank c = false := by
  by_contra blank
  rw [(not_wide_of_isWideBlank (eq_true_of_ne_false blank)).1] at letter
  cases letter

/-- Characters of ASCII are not in the tables. -/
theorem wide_of_ascii {c : Char} (ascii : c.toNat < 0x80) :
    isWideLetter c = false ∧ isWideBlank c = false := by
  unfold isWideLetter isWideBlank
  simp only [Bool.and_eq_false_imp, decide_eq_true_eq]
  constructor <;> (intro wide; omega)

end Lox.Text

namespace Lox.Token

/-! ### Classes of characters -/

theorem isDigit_bounds {c : Char} (digit : c.isDigit = true) : 48 ≤ c.toNat ∧ c.toNat ≤ 57 := by
  simp only [Char.isDigit, Bool.and_eq_true, decide_eq_true_eq] at digit
  exact digit

theorem isAlpha_bounds {c : Char} (letter : c.isAlpha = true) : 65 ≤ c.toNat ∧ c.toNat ≤ 122 := by
  unfold Char.isAlpha Char.isUpper Char.isLower at letter
  simp only [Bool.or_eq_true, Bool.and_eq_true, decide_eq_true_eq] at letter
  have bounds : (65 ≤ c.toNat ∧ c.toNat ≤ 90) ∨ (97 ≤ c.toNat ∧ c.toNat ≤ 122) := letter
  omega

/-- A blank of ASCII is one of the four. -/
theorem isBlank_bounds {c : Char} (blank : isBlank c = true) :
    c.toNat ≤ 32 ∨ Text.isWideBlank c = true := by
  simp only [isBlank, Bool.or_eq_true, beq_iff_eq] at blank
  rcases blank with (((rfl | rfl) | rfl) | rfl) | wide
  · exact .inl (by decide)
  · exact .inl (by decide)
  · exact .inl (by decide)
  · exact .inl (by decide)
  · exact .inr wide

theorem not_isBlank_of_isDigit {c : Char} (digit : c.isDigit = true) : isBlank c = false := by
  by_contra blank
  have bounds := isDigit_bounds digit
  rcases isBlank_bounds (eq_true_of_ne_false blank) with low | wide
  · omega
  · rw [(Text.wide_of_ascii (by omega)).2] at wide
    cases wide

theorem not_isDigit_of_isNameStart {c : Char} (start : isNameStart c = true) : c.isDigit = false := by
  by_contra digit
  have bounds := isDigit_bounds (eq_true_of_ne_false digit)
  simp only [isNameStart, Bool.or_eq_true, beq_iff_eq] at start
  rcases start with (letter | rfl) | wide
  · have others := isAlpha_bounds letter
    omega
  · exact digit rfl
  · rw [(Text.wide_of_ascii (by omega)).1] at wide
    cases wide

theorem not_isBlank_of_isNameStart {c : Char} (start : isNameStart c = true) : isBlank c = false := by
  by_contra blank
  have blank := isBlank_bounds (eq_true_of_ne_false blank)
  simp only [isNameStart, Bool.or_eq_true, beq_iff_eq] at start
  rcases start with (letter | rfl) | wide
  · have bounds := isAlpha_bounds letter
    rcases blank with low | wide
    · omega
    · rw [(Text.wide_of_ascii (by omega)).2] at wide
      cases wide
  · revert blank
    decide
  · have none := Text.not_isWideBlank_of_isWideLetter wide
    rcases blank with low | blank
    · rw [(Text.wide_of_ascii (by omega)).1] at wide
      cases wide
    · rw [none] at blank
      cases blank

theorem ne_quote_of_isDigit {c : Char} (digit : c.isDigit = true) : c ≠ '"' := by
  rintro rfl
  exact absurd digit (by decide)

theorem ne_quote_of_isNameStart {c : Char} (start : isNameStart c = true) : c ≠ '"' := by
  rintro rfl
  exact absurd start (by decide)

/-- What stands in none of the classes that the reader tells by their first character. -/
structure Operative (c : Char) : Prop where
  blank : isBlank c = false
  quote : c ≠ '"'
  digit : c.isDigit = false
  name : isNameStart c = false

theorem operative_symbol (s : Symbol) : ∃ c rest, s.text.toList = c :: rest ∧ Operative c := by
  cases s <;> exact ⟨_, _, rfl, by constructor <;> decide⟩

theorem isNameStart_keyword (k : Keyword) : ∃ c rest, k.text.toList = c :: rest ∧
    isNameStart c = true ∧ ∀ d ∈ rest, isNamePart d = true := by
  cases k <;> exact ⟨_, _, rfl, by decide, List.all_eq_true.mp (by decide)⟩

/-! ### The reader at each class -/

variable {c : Char} {after : List Char}

theorem munch_blank (blank : isBlank c = true) : munch c after = ⟨.gap, [c], after⟩ := by
  unfold munch
  rw [if_pos blank]

theorem munch_quote : munch '"' after = munchString after := by
  unfold munch
  rw [if_neg (by decide), if_pos rfl]

theorem munch_digit (digit : c.isDigit = true) : munch c after = munchNumber (c :: after) := by
  unfold munch
  rw [if_neg (Bool.eq_false_iff.mp (not_isBlank_of_isDigit digit)),
    if_neg (ne_quote_of_isDigit digit), if_pos digit]

theorem munch_name (start : isNameStart c = true) : munch c after = munchWord (c :: after) := by
  unfold munch
  rw [if_neg (Bool.eq_false_iff.mp (not_isBlank_of_isNameStart start)),
    if_neg (ne_quote_of_isNameStart start),
    if_neg (Bool.eq_false_iff.mp (not_isDigit_of_isNameStart start)), if_pos start]

theorem munch_comment (slash : after.head? = some '/') : munch '/' after = munchComment '/' after := by
  unfold munch
  rw [if_neg (by decide), if_neg (by decide), if_neg (by decide), if_neg (by decide),
    if_pos ⟨rfl, slash⟩]

theorem munch_operative (operative : Operative c) (noComment : ¬(c = '/' ∧ after.head? = some '/')) :
    munch c after = match readSymbol? (c :: after) with
      | some (s, rest) => ⟨.token (.symbol s), s.text.toList, rest⟩
      | none => ⟨.fault (.unexpected c), [c], after⟩ := by
  unfold munch
  rewrite [if_neg (Bool.eq_false_iff.mp operative.blank), if_neg operative.quote,
    if_neg (Bool.eq_false_iff.mp operative.digit), if_neg (Bool.eq_false_iff.mp operative.name),
    if_neg noComment]
  cases readSymbol? (c :: after) <;> rfl

/-! ### Lexemes -/

/-- How a token can be written, and the kind of token that it is. A name is any word but a keyword. -/
inductive Lexeme : List Char → Kind → Prop
  | symbol (s : Symbol) : Lexeme s.text.toList (.symbol s)
  | string {contents : List Char} (inside : '"' ∉ contents) :
      Lexeme ('"' :: (contents ++ ['"'])) (.string (String.ofList contents))
  | whole {digits : List Char} (some : digits ≠ []) (all : ∀ c ∈ digits, c.isDigit = true) :
      Lexeme digits (.number (numberValue digits []))
  | decimal {digits fraction : List Char} (some : digits ≠ [])
      (all : ∀ c ∈ digits, c.isDigit = true) (more : fraction ≠ [])
      (allMore : ∀ c ∈ fraction, c.isDigit = true) :
      Lexeme (digits ++ '.' :: fraction) (.number (numberValue digits fraction))
  | keyword (k : Keyword) : Lexeme k.text.toList (.keyword k)
  | name {c : Char} {rest : List Char} (start : isNameStart c = true)
      (parts : ∀ d ∈ rest, isNamePart d = true) (other : ∀ k : Keyword, k.text.toList ≠ c :: rest) :
      Lexeme (c :: rest) .identifier

theorem takeWhile_all {p : Char → Bool} {front : List Char} (all : ∀ c ∈ front, p c = true)
    (text : List Char) : (front ++ text).takeWhile p = front ++ text.takeWhile p :=
  List.takeWhile_append_of_pos all

theorem dropWhile_all {p : Char → Bool} {front : List Char} (all : ∀ c ∈ front, p c = true)
    (text : List Char) : (front ++ text).dropWhile p = text.dropWhile p :=
  List.dropWhile_append_of_pos all

theorem not_quote {contents : List Char} (inside : '"' ∉ contents) :
    ∀ c ∈ contents, (c != '"') = true := by
  intro c member
  rw [bne_iff_ne]
  rintro rfl
  exact inside member

theorem munchString_closed {contents : List Char} (inside : '"' ∉ contents) (rest : List Char) :
    munchString (contents ++ '"' :: rest) =
      ⟨.token (.string (String.ofList contents)), '"' :: (contents ++ ['"']), rest⟩ := by
  have taken := takeWhile_all (not_quote inside) ('"' :: rest)
  have dropped := dropWhile_all (not_quote inside) ('"' :: rest)
  rw [List.takeWhile_cons_of_neg (by decide), List.append_nil] at taken
  rw [List.dropWhile_cons_of_neg (by decide)] at dropped
  unfold munchString
  rw [taken, dropped]

theorem munchString_unclosed {contents : List Char} (inside : '"' ∉ contents) :
    munchString contents = ⟨.fault .unterminated, '"' :: contents, []⟩ := by
  have taken := takeWhile_all (not_quote inside) []
  have dropped := dropWhile_all (not_quote inside) []
  rw [List.append_nil] at taken dropped
  unfold munchString
  rw [taken, dropped]
  rw [List.takeWhile_nil, List.append_nil]
  rfl

theorem munchNumber_whole {digits : List Char} (all : ∀ c ∈ digits, c.isDigit = true) :
    munchNumber digits = ⟨.token (.number (numberValue digits [])), digits, []⟩ := by
  have taken := takeWhile_all all []
  have dropped := dropWhile_all all []
  rw [List.append_nil] at taken dropped
  unfold munchNumber
  rw [taken, dropped, List.takeWhile_nil, List.append_nil]
  rfl

theorem munchNumber_decimal {digits : List Char} (all : ∀ c ∈ digits, c.isDigit = true)
    {d : Char} (digit : d.isDigit = true) (rest : List Char) :
    munchNumber (digits ++ '.' :: d :: rest) =
      ⟨.token (.number (numberValue digits ((d :: rest).takeWhile Char.isDigit))),
        digits ++ '.' :: (d :: rest).takeWhile Char.isDigit, (d :: rest).dropWhile Char.isDigit⟩ := by
  have taken := takeWhile_all all ('.' :: d :: rest)
  have dropped := dropWhile_all all ('.' :: d :: rest)
  rw [List.takeWhile_cons_of_neg (by decide), List.append_nil] at taken
  rw [List.dropWhile_cons_of_neg (by decide)] at dropped
  unfold munchNumber
  rw [taken, dropped]
  simp only [munchFraction, if_pos digit]

theorem ofText?_text (k : Keyword) : Keyword.ofText? k.text = some k := by
  cases k <;> decide

theorem wordKind_keyword (k : Keyword) : wordKind k.text = .keyword k := by
  unfold wordKind
  rw [ofText?_text]

theorem text_of_ofText? {word : String} {k : Keyword} (found : Keyword.ofText? word = some k) :
    k.text = word := by
  have same := List.find?_some found
  exact beq_iff_eq.mp same

theorem wordKind_name {word : List Char} (other : ∀ k : Keyword, k.text.toList ≠ word) :
    wordKind (String.ofList word) = .identifier := by
  unfold wordKind
  cases found : Keyword.ofText? (String.ofList word) with
  | none => rfl
  | some k =>
      refine absurd ?_ (other k)
      rw [text_of_ofText? found, String.toList_ofList]

theorem munchWord_all {word : List Char} (all : ∀ c ∈ word, isNamePart c = true) :
    munchWord word = ⟨.token (wordKind (String.ofList word)), word, []⟩ := by
  have taken := takeWhile_all all []
  have dropped := dropWhile_all all []
  rw [List.append_nil] at taken dropped
  unfold munchWord
  rw [taken, dropped, List.takeWhile_nil, List.append_nil]
  rfl

theorem namePart_all {c : Char} {rest : List Char} (start : isNameStart c = true)
    (parts : ∀ d ∈ rest, isNamePart d = true) : ∀ d ∈ c :: rest, isNamePart d = true := by
  intro d member
  rcases List.mem_cons.mp member with rfl | later
  · exact isNamePart_of_isNameStart start
  · exact parts d later

theorem readSymbol?_text (s : Symbol) : readSymbol? s.text.toList = some (s, []) := by
  cases s <;> rfl

/-- No lexeme begins a comment. -/
theorem Lexeme.noComment {lexeme : List Char} {kind : Kind} (valid : Lexeme lexeme kind) :
    ¬['/', '/'] <+: lexeme := by
  cases valid with
  | symbol s => cases s <;> decide
  | string inside =>
    intro front
    cases (List.cons_prefix_cons.mp front).1
  | whole some all =>
    intro front
    exact absurd (all '/' (front.subset List.mem_cons_self)) (by decide)
  | @decimal digits fraction some all more allMore =>
    intro front
    cases digits with
    | nil => exact some rfl
    | cons d digits =>
      have same := (List.cons_prefix_cons.mp front).1
      exact absurd (all d List.mem_cons_self) (by rw [← same]; decide)
  | keyword k => cases k <;> decide
  | name start parts =>
    intro front
    have same := (List.cons_prefix_cons.mp front).1
    rw [← same] at start
    exact absurd start (by decide)

/-- A whole lexeme is read as what it is. -/
theorem munch_lexeme {lexeme : List Char} {kind : Kind} (valid : Lexeme lexeme kind) :
    lexeme = c :: after → munch c after = ⟨.token kind, c :: after, []⟩ := by
  intro same
  have noComment : ¬(c = '/' ∧ after.head? = some '/') := by
    rintro ⟨rfl, head⟩
    refine valid.noComment ?_
    cases after with
    | nil => cases head
    | cons d rest =>
      cases head
      exact ⟨rest, same.symm⟩
  cases valid with
  | symbol s =>
    obtain ⟨first, rest, text, operative⟩ := operative_symbol s
    have head : first = c := (List.cons.inj (text.symm.trans same)).1
    rw [munch_operative (head ▸ operative) noComment, ← same, readSymbol?_text]
  | string inside =>
    cases same
    rw [munch_quote, munchString_closed inside]
  | whole some all =>
    subst same
    rw [munch_digit (all c List.mem_cons_self), munchNumber_whole all]
  | @decimal digits fraction some all more allMore =>
    cases fraction with
    | nil => exact absurd rfl more
    | cons d fraction =>
      have digit : c.isDigit = true := by
        cases digits with
        | nil => exact absurd rfl some
        | cons e digits =>
          cases same
          exact all c List.mem_cons_self
      have taken := takeWhile_all allMore []
      have dropped := dropWhile_all allMore []
      rw [List.append_nil, List.takeWhile_nil, List.append_nil] at taken
      rw [List.append_nil, List.dropWhile_nil] at dropped
      rw [munch_digit digit, ← same, munchNumber_decimal all (allMore d List.mem_cons_self), taken,
        dropped]
  | keyword k =>
    obtain ⟨first, rest, text, start, parts⟩ := isNameStart_keyword k
    cases text.symm.trans same
    have whole : String.ofList (c :: after) = k.text := by rw [← same, String.ofList_toList]
    rw [munch_name start, munchWord_all (namePart_all start parts), whole, wordKind_keyword]
  | name start parts other =>
    cases same
    rw [munch_name start, munchWord_all (namePart_all start parts), wordKind_name other]

theorem Lexeme.ne_nil {lexeme : List Char} {kind : Kind} (valid : Lexeme lexeme kind) :
    lexeme ≠ [] := by
  cases valid with
  | symbol s => cases s <;> decide
  | string => exact List.cons_ne_nil _ _
  | whole some => exact some
  | decimal => simp
  | keyword k => cases k <;> decide
  | name => exact List.cons_ne_nil _ _

/-- A lexeme stands for tokens of one kind only. -/
theorem Lexeme.kind_eq {lexeme : List Char} {kind other : Kind} (valid : Lexeme lexeme kind)
    (also : Lexeme lexeme other) : kind = other := by
  cases text : lexeme with
  | nil => exact absurd text valid.ne_nil
  | cons c after =>
    have same := (munch_lexeme valid text).symm.trans (munch_lexeme also text)
    simp only [Munch.mk.injEq, Piece.token.injEq] at same
    exact same.1

/-- Words of the table are keywords, and no others. -/
theorem Lexeme.keyword_iff {lexeme : List Char} {kind : Kind} (valid : Lexeme lexeme kind)
    (k : Keyword) : kind = .keyword k ↔ k.text = String.ofList lexeme := by
  constructor
  · rintro rfl
    cases valid
    exact String.ofList_toList.symm
  · intro same
    have text : lexeme = k.text.toList := by rw [same, String.toList_ofList]
    rw [text] at valid
    exact valid.kind_eq (.keyword k)

/-! ### What the reader takes -/

theorem lexeme_of_munchString {kind : Kind} (found : (munchString after).piece = .token kind) :
    Lexeme (munchString after).taken kind := by
  unfold munchString at found ⊢
  cases rest : after.dropWhile (· != '"') with
  | nil =>
    rw [rest] at found
    cases found
  | cons last more =>
    rw [rest] at found
    cases found
    have isQuote : last = '"' := by
      have stops := List.head?_dropWhile_not (· != '"') after
      rw [rest] at stops
      simpa using stops
    rw [isQuote]
    refine .string fun member => ?_
    exact absurd (List.mem_takeWhile_imp member) (by decide)

theorem munchFraction_lexeme {whole rest : List Char} (some : whole ≠ [])
    (all : ∀ d ∈ whole, d.isDigit = true) : ∃ kind,
      (munchFraction whole rest).piece = .token kind ∧ Lexeme (munchFraction whole rest).taken kind := by
  unfold munchFraction
  split
  · next d more =>
    split
    · next digit =>
      refine ⟨_, rfl, .decimal some all ?_ fun _ member => List.mem_takeWhile_imp member⟩
      rw [List.takeWhile_cons_of_pos digit]
      exact List.cons_ne_nil _ _
    · exact ⟨_, rfl, .whole some all⟩
  · exact ⟨_, rfl, .whole some all⟩

theorem munchNumber_lexeme (digit : c.isDigit = true) : ∃ kind,
    (munchNumber (c :: after)).piece = .token kind ∧
      Lexeme (munchNumber (c :: after)).taken kind := by
  refine munchFraction_lexeme ?_ fun _ member => List.mem_takeWhile_imp member
  rw [List.takeWhile_cons_of_pos digit]
  exact List.cons_ne_nil _ _

theorem munchWord_lexeme (start : isNameStart c = true) : ∃ kind,
    (munchWord (c :: after)).piece = .token kind ∧ Lexeme (munchWord (c :: after)).taken kind := by
  unfold munchWord
  rw [List.takeWhile_cons_of_pos (isNamePart_of_isNameStart start)]
  refine ⟨_, rfl, ?_⟩
  by_cases isKeyword : ∃ k : Keyword, k.text.toList = c :: after.takeWhile isNamePart
  · obtain ⟨k, text⟩ := isKeyword
    rw [← text, String.ofList_toList, wordKind_keyword]
    exact .keyword k
  · have other := not_exists.mp isKeyword
    rw [wordKind_name other]
    exact .name start (fun _ member => List.mem_takeWhile_imp member) other

/-- Every character is in one of the classes. -/
theorem class_cases (c : Char) : isBlank c = true ∨ c = '"' ∨ c.isDigit = true ∨
    isNameStart c = true ∨ Operative c := by
  by_cases blank : isBlank c = true
  · exact .inl blank
  by_cases quote : c = '"'
  · exact .inr (.inl quote)
  by_cases digit : c.isDigit = true
  · exact .inr (.inr (.inl digit))
  by_cases name : isNameStart c = true
  · exact .inr (.inr (.inr (.inl name)))
  · refine .inr (.inr (.inr (.inr ?_)))
    exact ⟨Bool.eq_false_iff.mpr blank, quote, Bool.eq_false_iff.mpr digit, Bool.eq_false_iff.mpr name⟩

/-- What is read as a token is a lexeme. -/
theorem lexeme_of_munch {kind : Kind} (found : (munch c after).piece = .token kind) :
    Lexeme (munch c after).taken kind := by
  rcases class_cases c with blank | rfl | digit | start | operative
  · rw [munch_blank blank] at found
    cases found
  · rw [munch_quote] at found ⊢
    exact lexeme_of_munchString found
  · obtain ⟨other, same, valid⟩ := @munchNumber_lexeme c after digit
    rw [munch_digit digit] at found ⊢
    cases same.symm.trans found
    exact valid
  · obtain ⟨other, same, valid⟩ := @munchWord_lexeme c after start
    rw [munch_name start] at found ⊢
    cases same.symm.trans found
    exact valid
  · by_cases comment : c = '/' ∧ after.head? = some '/'
    · obtain ⟨rfl, slash⟩ := comment
      rw [munch_comment slash] at found
      cases found
    · rw [munch_operative operative comment] at found ⊢
      cases read : readSymbol? (c :: after) with
      | none =>
        rw [read] at found
        cases found
      | some front =>
        rw [read] at found
        cases found
        exact .symbol front.1

theorem readSymbol?_ne_none (s : Symbol) (rest : List Char) :
    readSymbol? (s.text.toList ++ rest) ≠ none := by
  intro none
  unfold readSymbol? at none
  split at none
  case h_24 =>
    cases s <;> (exfalso; solve_by_elim)
  all_goals cases none

/-- Reading a symbol never stops before the end of one. -/
theorem readSymbol?_reaches (s : Symbol) (rest : List Char) : ∃ longer more,
    readSymbol? (s.text.toList ++ rest) = some (longer, more) ∧
      s.text.toList.length ≤ longer.text.toList.length := by
  have one (longer : Symbol) : 1 ≤ longer.text.toList.length := by cases longer <;> decide
  cases found : readSymbol? (s.text.toList ++ rest) with
  | none => exact absurd found (readSymbol?_ne_none s rest)
  | some front =>
    refine ⟨front.1, front.2, rfl, ?_⟩
    cases s
    case starStar | bangEqual | equalEqual | equalGreater | greaterEqual | lessEqual =>
      cases found
      exact Nat.le_refl _
    all_goals exact one front.1

theorem length_le_takeWhile {p : Char → Bool} {front : List Char} (all : ∀ d ∈ front, p d = true)
    (text : List Char) : front.length ≤ ((front ++ text).takeWhile p).length := by
  rw [takeWhile_all all, List.length_append]
  exact Nat.le_add_right _ _

theorem munchFraction_reaches (whole rest : List Char) :
    whole.length ≤ (munchFraction whole rest).taken.length := by
  unfold munchFraction
  split
  · split
    · rw [List.length_append]
      exact Nat.le_add_right _ _
    · exact Nat.le_refl _
  · exact Nat.le_refl _

theorem munchWord_reaches {word : List Char} (parts : ∀ d ∈ word, isNamePart d = true)
    (rest : List Char) : ∃ other, (munchWord (word ++ rest)).piece = .token other ∧
      word.length ≤ (munchWord (word ++ rest)).taken.length :=
  ⟨_, rfl, length_le_takeWhile parts rest⟩

/-- Only a comment hides a lexeme that begins where it begins. Else something is read as a token that is
no shorter. -/
theorem munch_reaches {lexeme rest : List Char} {kind : Kind} (valid : Lexeme lexeme kind)
    (front : lexeme ++ rest = c :: after) : (c = '/' ∧ after.head? = some '/') ∨
      ∃ other, (munch c after).piece = .token other ∧
        lexeme.length ≤ (munch c after).taken.length := by
  cases valid with
  | symbol s =>
    obtain ⟨first, others, text, operative⟩ := operative_symbol s
    have head : first = c := by
      rw [text, List.cons_append] at front
      exact (List.cons.inj front).1
    by_cases comment : c = '/' ∧ after.head? = some '/'
    · exact .inl comment
    · obtain ⟨longer, more, read, length⟩ := readSymbol?_reaches s rest
      rw [munch_operative (head ▸ operative) comment, ← front, read]
      exact .inr ⟨_, rfl, length⟩
  | string inside =>
    rw [List.cons_append, List.append_assoc] at front
    cases front
    rw [munch_quote, List.singleton_append, munchString_closed inside]
    exact .inr ⟨_, rfl, Nat.le_refl _⟩
  | whole some all =>
    obtain ⟨first, digits, rfl⟩ := List.exists_cons_of_ne_nil some
    cases front
    have digit := all c List.mem_cons_self
    obtain ⟨other, isToken, -⟩ := @munchNumber_lexeme c (digits ++ rest) digit
    rw [munch_digit digit]
    refine .inr ⟨other, isToken, Nat.le_trans ?_ (munchFraction_reaches _ _)⟩
    exact length_le_takeWhile all rest
  | decimal some all more allMore =>
    obtain ⟨first, digits, rfl⟩ := List.exists_cons_of_ne_nil some
    obtain ⟨d, fraction, rfl⟩ := List.exists_cons_of_ne_nil more
    have read := munchNumber_decimal all (allMore d List.mem_cons_self) (fraction ++ rest)
    rw [List.append_assoc, List.cons_append] at front
    obtain ⟨rfl, rfl⟩ := List.cons.inj front
    rw [munch_digit (all first List.mem_cons_self)]
    refine .inr ⟨_, congrArg Munch.piece read, ?_⟩
    have longer := length_le_takeWhile allMore rest
    have taken := congrArg (·.taken.length) read
    simp only [List.length_append, List.length_cons, List.cons_append] at longer taken ⊢
    omega
  | keyword k =>
    obtain ⟨first, others, text, start, parts⟩ := isNameStart_keyword k
    rw [text] at front ⊢
    cases front
    rw [munch_name start]
    exact .inr (munchWord_reaches (namePart_all start parts) rest)
  | name start parts other =>
    cases front
    rw [munch_name start]
    exact .inr (munchWord_reaches (namePart_all start parts) rest)

end Lox.Token
