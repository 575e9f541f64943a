import Lox.Proofs.Twin.Tokens
import Lox.Text.Newline

set_option autoImplicit false

/-! Texts with a newline between them. What stands before the newline is read as if it were alone, unless
it ends in an open string, and what stands behind it as if it began there. A carriage return before the
newline is dropped with it, which makes no difference: it would be a gap or the end of a comment. -/

namespace Lox.Token

theorem munch_rest_length (c : Char) (after : List Char) :
    (munch c after).rest.length < (c :: after).length := by
  have whole := congrArg List.length (munch_append c after)
  have some := List.length_pos_iff.mpr (munch_taken_ne_nil c after)
  rw [List.length_append] at whole
  omega

/-- A text is read piece by piece. -/
theorem munch_induction {motive : List Char → Prop} (nil : motive [])
    (cons : ∀ c after, motive (munch c after).rest → motive (c :: after)) : ∀ text, motive text
  | [] => nil
  | c :: after => cons c after (munch_induction nil cons (munch c after).rest)
termination_by text => text.length
decreasing_by exact munch_rest_length c after

/-- The items of a text whose first byte has the position `start`, without the end of the input. -/
def body (start : Nat) (text : List Char) : List Item :=
  match text with
  | [] => []
  | c :: after =>
    let stop := start + Text.byteLength (munch c after).taken
    ((munch c after).piece.item? (munch c after).taken start stop).toList ++
      body stop (munch c after).rest
termination_by text.length
decreasing_by exact munch_rest_length c after

theorem body_nil (start : Nat) : body start [] = [] := by
  rw [body]

theorem body_cons (start : Nat) (c : Char) (after : List Char) :
    body start (c :: after) =
      ((munch c after).piece.item? (munch c after).taken start
        (start + Text.byteLength (munch c after).taken)).toList ++
        body (start + Text.byteLength (munch c after).taken) (munch c after).rest := by
  rw [body]

theorem body_of_gap {c : Char} {after taken rest : List Char}
    (read : munch c after = ⟨.gap, taken, rest⟩) (start : Nat) :
    body start (c :: after) = body (start + Text.byteLength taken) rest := by
  rw [body_cons, read]
  rfl

theorem body_of_token {c : Char} {after taken rest : List Char} {kind : Kind}
    (read : munch c after = ⟨.token kind, taken, rest⟩) (start : Nat) :
    body start (c :: after) =
      .token ⟨kind, String.ofList taken, start + Text.byteLength taken⟩ ::
        body (start + Text.byteLength taken) rest := by
  rw [body_cons, read]
  rfl

theorem scanFrom_eq_body : ∀ (bound : Nat) (items : List Item) (start : Nat) (text : List Char),
    text.length ≤ bound → scanFrom bound items start text =
      items.reverse ++ (body start text ++ [.token (atEnd (start + Text.byteLength text))])
  | bound, items, start, [], _ => by
      rw [body_nil]
      cases bound <;> exact List.reverse_cons
  | bound + 1, items, start, c :: after, enough => by
      have fewer := munch_rest_length c after
      have rest (items : List Item) := scanFrom_eq_body bound items
        (start + Text.byteLength (munch c after).taken) (munch c after).rest (by omega)
      have whole := congrArg Text.byteLength (munch_append c after)
      rw [Text.byteLength_append] at whole
      unfold scanFrom
      rw [body_cons, ← whole, ← Nat.add_assoc]
      dsimp only
      cases (munch c after).piece.item? _ _ _ with
      | none => exact rest items
      | some item =>
        refine (rest (item :: items)).trans ?_
        simp only [List.reverse_cons, List.append_assoc, Option.toList_some]

theorem scan_eq_body (base : Nat) (text : List Char) :
    scan base text = body base text ++ [.token (atEnd (base + Text.byteLength text))] :=
  scanFrom_eq_body text.length [] base text (Nat.le_refl _)

/-- Items without an error among them. -/
def Clean (items : List Item) : Prop :=
  ∀ item ∈ items, item.error? = none

/-- Items of a text that does not end in an open string. -/
def Closed (items : List Item) : Prop :=
  ∀ e, .error e ∈ items → e.fault ≠ .unterminated

theorem Clean.closed {items : List Item} (clean : Clean items) : Closed items := by
  intro e member
  cases clean _ member

theorem Closed.front {c : Char} {after : List Char} {start : Nat}
    (closed : Closed (body start (c :: after))) :
    (munch c after).piece ≠ .fault .unterminated := by
  intro fault
  rw [body_cons, fault] at closed
  exact closed _ (List.mem_append_left _ List.mem_cons_self) rfl

theorem Closed.rest {c : Char} {after : List Char} {start : Nat}
    (closed : Closed (body start (c :: after))) :
    Closed (body (start + Text.byteLength (munch c after).taken) (munch c after).rest) := by
  intro e member
  rw [body_cons] at closed
  exact closed e (List.mem_append_right _ member)

/-- A text that goes on after the end of a line. -/
theorem body_newline (more : List Char) {start : Nat} {text : List Char}
    (closed : Closed (body start text)) : body start (text ++ '\n' :: more) =
      body start text ++ body (start + Text.byteLength text + 1) more := by
  induction text using munch_induction generalizing start with
  | nil =>
      rw [List.nil_append, body_cons, body_nil]
      rfl
  | cons c after ih =>
      have whole := congrArg Text.byteLength (munch_append c after)
      rw [Text.byteLength_append] at whole
      rw [List.cons_append, body_cons, munch_cut newline_endsLine closed.front fun _ _ => .inl rfl,
        body_cons]
      dsimp only [Munch.before]
      rw [ih closed.rest, ← whole, List.append_assoc, Nat.add_assoc start]

/-- A carriage return at the end of a text is a gap, or belongs to a comment. -/
theorem body_return {start : Nat} {text : List Char} (closed : Closed (body start (text ++ ['\r']))) :
    body start (text ++ ['\r']) = body start text := by
  induction text using munch_induction generalizing start with
  | nil =>
      rw [List.nil_append, body_cons, body_nil]
      exact body_nil _
  | cons c after ih =>
      rw [List.cons_append] at closed ⊢
      have front := mt (munch_open return_endsLine) closed.front
      by_cases comment : c = '/' ∧ after.head? = some '/' ∧ '\n' ∉ after
      · obtain ⟨rfl, slash, oneLine⟩ := comment
        have gap (text : List Char) (slash : text.head? = some '/') (oneLine : '\n' ∉ text) :
            body start ('/' :: text) = [] := by
          rw [body_of_gap (munch_comment slash), dropWhile_newline.mpr oneLine]
          exact body_nil _
        rw [gap after slash oneLine, gap (after ++ ['\r'])]
        · rw [List.head?_append, slash]
          rfl
        · simpa using oneLine
      · have inside (slash : c = '/') (next : after.head? = some '/') :
            '\r' = '\n' ∨ '\n' ∈ after := .inr <| by
          by_contra oneLine
          exact comment ⟨slash, next, oneLine⟩
        have cut := munch_cut return_endsLine front inside []
        have rest := closed.rest
        rw [cut] at rest
        rw [body_cons, cut, body_cons]
        dsimp only [Munch.before] at rest ⊢
        rw [ih rest]

/-! ### Tokens without the end of the input -/

/-- The tokens of a text whose first byte has the position `base`, without the end of the input. -/
def words (base : Nat) (text : List Char) : List Token :=
  (body base text).filterMap Item.token?

theorem ofText_eq_words (base : Nat) (text : List Char) :
    ofText base text = words base text ++ [atEnd (base + Text.byteLength text)] := by
  unfold ofText words
  rw [scan_eq_body, List.filterMap_append]
  rfl

theorem munch_not_end {c : Char} {after : List Char} {kind : Kind}
    (found : (munch c after).piece = .token kind) : kind ≠ .endOfInput := by
  rintro rfl
  have valid := lexeme_of_munch found
  generalize (munch c after).taken = lexeme at valid
  cases valid

theorem isEnd_of_body {start : Nat} {text : List Char} {token : Token}
    (member : .token token ∈ body start text) : token.isEnd = false := by
  induction text using munch_induction generalizing start with
  | nil =>
      rw [body_nil] at member
      cases member
  | cons c after ih =>
      rw [body_cons] at member
      rcases List.mem_append.mp member with front | later
      · have front := Option.mem_toList.mp front
        cases piece : (munch c after).piece with
        | token kind =>
          rw [piece] at front
          cases front
          have other := munch_not_end piece
          unfold Token.isEnd
          split
          · next same => exact absurd same other
          · rfl
        | gap =>
          rw [piece] at front
          cases front
        | fault fault =>
          rw [piece] at front
          cases front
      · exact ih later

theorem isEnd_of_words {base : Nat} {text : List Char} : ∀ token ∈ words base text,
    token.isEnd = false := by
  intro token member
  obtain ⟨item, inBody, isToken⟩ := List.mem_filterMap.mp member
  cases item with
  | token other =>
    cases isToken
    exact isEnd_of_body inBody
  | error e => cases isToken

/-- Any two positions. -/
abbrev anywhere : Nat → Nat → Prop := fun _ _ => True

theorem body_twin (start other : Nat) (text : List Char) :
    List.Forall₂ (Item.Twin anywhere) (body start text) (body other text) := by
  induction text using munch_induction generalizing start other with
  | nil =>
      rw [body_nil, body_nil]
      exact .nil
  | cons c after ih =>
      have front : Option.Rel (Item.Twin anywhere) _ _ :=
        item_twin c after (show anywhere (start + 0) (other + 0) from trivial)
      have rest := ih (start + Text.byteLength (munch c after).taken)
        (other + Text.byteLength (munch c after).taken)
      rw [body_cons, body_cons]
      refine List.rel_append ?_ rest
      simp only [Nat.add_zero] at front
      generalize (munch c after).piece.item? _ _ _ = one at front ⊢
      generalize (munch c after).piece.item? _ _ _ = two at front ⊢
      cases front with
      | none => exact .nil
      | some same => exact .cons same .nil

theorem words_twin (base other : Nat) (text : List Char) :
    List.Forall₂ (Token.Twin anywhere) (words base text) (words other text) := by
  have items := body_twin base other text
  unfold words
  generalize body base text = one at items ⊢
  generalize body other text = two at items ⊢
  induction items with
  | nil => exact .nil
  | cons same _ ih =>
    cases same with
    | token same => exact .cons same ih
    | error => exact ih

end Lox.Token

namespace Lox.Text

/-- A text without a carriage return at its end. -/
def trimReturn : List Char → List Char
  | [] => []
  | ['\r'] => []
  | c :: rest => c :: trimReturn rest

theorem plainFrom_append (front back text : List Char) :
    plainFrom (front ++ back) text = back.reverse ++ plainFrom front text := by
  fun_induction plainFrom front text with
  | case1 front rest ih =>
    rw [← ih]
    rfl
  | case2 front c rest other ih =>
    rw [← ih, plainFrom]
    · rfl
    · exact other
  | case3 front => exact List.reverse_append

theorem plainFrom_eq (front text : List Char) :
    plainFrom front text = front.reverse ++ plainNewlines text :=
  plainFrom_append [] front text

theorem plainNewlines_return (rest : List Char) :
    plainNewlines ('\r' :: '\n' :: rest) = '\n' :: plainNewlines rest :=
  plainFrom_eq ['\n'] rest

theorem plainNewlines_cons {c : Char} {rest : List Char}
    (other : ∀ more, c = '\r' → rest = '\n' :: more → False) :
    plainNewlines (c :: rest) = c :: plainNewlines rest := by
  unfold plainNewlines
  rw [plainFrom]
  · exact plainFrom_eq [c] rest
  · exact other

theorem plainNewlines_ne_nil {text : List Char} (some : text ≠ []) : plainNewlines text ≠ [] := by
  match text with
  | [] => exact absurd rfl some
  | c :: rest =>
    by_cases lineEnd : ∃ more, c = '\r' ∧ rest = '\n' :: more
    · obtain ⟨more, rfl, rfl⟩ := lineEnd
      rw [plainNewlines_return]
      exact List.cons_ne_nil _ _
    · rw [plainNewlines_cons fun more one two => lineEnd ⟨more, one, two⟩]
      exact List.cons_ne_nil _ _

theorem trimReturn_cons {c : Char} {rest : List Char} (other : c = '\r' → rest = [] → False) :
    trimReturn (c :: rest) = c :: trimReturn rest := by
  rw [trimReturn]
  exact other

/-- Two texts with a newline between them. -/
theorem plainNewlines_line (second : List Char) : ∀ first : List Char,
    plainNewlines (first ++ '\n' :: second) =
      trimReturn (plainNewlines first) ++ '\n' :: plainNewlines second
  | [] => plainNewlines_cons fun _ impossible _ => absurd impossible (by decide)
  | c :: rest => by
    by_cases lineEnd : ∃ more, c = '\r' ∧ rest = '\n' :: more
    · obtain ⟨more, rfl, rfl⟩ := lineEnd
      rw [List.cons_append, List.cons_append, plainNewlines_return, plainNewlines_return,
        plainNewlines_line second more, trimReturn_cons fun impossible => absurd impossible (by decide),
        List.cons_append]
    · have other (more : List Char) (one : c = '\r') (two : rest = '\n' :: more) : False :=
        lineEnd ⟨more, one, two⟩
      by_cases last : c = '\r' ∧ rest = []
      · obtain ⟨rfl, rfl⟩ := last
        exact plainNewlines_return second
      · have still (more : List Char) (one : c = '\r')
            (two : rest ++ '\n' :: second = '\n' :: more) : False := by
          cases rest with
          | nil => exact last ⟨one, rfl⟩
          | cons d rest => exact other rest one (congrArg (· :: rest) (List.cons.inj two).1)
        rw [List.cons_append, plainNewlines_cons still, plainNewlines_line second rest,
          plainNewlines_cons other, trimReturn_cons, List.cons_append]
        intro one none
        exact last ⟨one, by_contra fun some => plainNewlines_ne_nil some none⟩
termination_by first => first.length

theorem trimReturn_or (text : List Char) : trimReturn text = text ∨ trimReturn text ++ ['\r'] = text := by
  fun_induction trimReturn text with
  | case1 => exact .inl rfl
  | case2 => exact .inr rfl
  | case3 c rest other ih =>
    rcases ih with same | same
    · exact .inl (congrArg (c :: ·) same)
    · exact .inr (congrArg (c :: ·) same)

end Lox.Text

namespace Lox.Token

open Text (plainNewlines trimReturn)

/-- Two sources with a newline between them: the items of the first, and then those of the second,
somewhere. -/
theorem body_line {base : Nat} {first : List Char} (clean : Clean (body base (plainNewlines first)))
    (second : List Char) : ∃ later, body base (plainNewlines (first ++ '\n' :: second)) =
      body base (plainNewlines first) ++ body later (plainNewlines second) := by
  have trimmed : body base (trimReturn (plainNewlines first)) = body base (plainNewlines first) := by
    rcases Text.trimReturn_or (plainNewlines first) with same | same
    · rw [same]
    · rw [← same] at clean
      conv_rhs => rw [← same]
      exact (body_return clean.closed).symm
  refine ⟨base + Text.byteLength (trimReturn (plainNewlines first)) + 1, ?_⟩
  rw [Text.plainNewlines_line, body_newline _ (trimmed ▸ clean.closed), trimmed]

end Lox.Token
