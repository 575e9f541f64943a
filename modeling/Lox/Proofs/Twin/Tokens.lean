import Lox.Proofs.Reading.Program
import Lox.Proofs.Token.Lexeme

set_option autoImplicit false

/-! One text that stands at two positions. It is read as the same tokens and errors, each as far from the
beginning of the text as the other. No token that is read is spelled like a hidden variable. -/

namespace Lox

open Grammar.Rules (hiddenName)

namespace Token

/-- Not spelled like a hidden variable. -/
def Plain (token : Token) : Prop :=
  ∀ id keyword, token.lexeme ≠ (hiddenName id keyword).lexeme

/-- Two tokens with one spelling that begin at corresponding positions. -/
structure Twin (positions : Nat → Nat → Prop) (t u : Token) : Prop where
  kind : t.kind = u.kind
  lexeme : t.lexeme = u.lexeme
  start : positions t.span.start u.span.start
  plain : t.Plain

theorem Twin.mono {positions more : Nat → Nat → Prop} {t u : Token} (twin : Twin positions t u)
    (le : ∀ p q, positions p q → more p q) : Twin more t u :=
  ⟨twin.kind, twin.lexeme, le _ _ twin.start, twin.plain⟩

theorem plain_of_hash {taken : List Char} {token : Token}
    (same : token.lexeme = String.ofList taken)
    (free : taken.head? = some 's' → '#' ∉ taken) : token.Plain := by
  intro id keyword spelled
  have whole : taken = "switch#".toList ++ (toString id).toList := by
    rw [← String.toList_append, ← String.toList_ofList (l := taken), ← same, spelled]
    rfl
  refine free ?_ ?_
  · rw [whole]
    rfl
  · rw [whole]
    exact List.mem_append_left _ (by decide)

theorem head_taken {c : Char} {after : List Char} : (munch c after).taken.head? = some c := by
  have whole := munch_append c after
  have some := munch_taken_ne_nil c after
  cases taken : (munch c after).taken with
  | nil => exact absurd taken some
  | cons first rest =>
      rw [taken] at whole
      injection whole with same
      rw [same]
      rfl

/-- A word has no `#` in it. -/
theorem munch_hash {c : Char} {after : List Char} (word : (munch c after).taken.head? = some 's') :
    '#' ∉ (munch c after).taken := by
  rw [head_taken] at word
  cases word
  rw [munch_name (by decide)]
  intro member
  have part := List.mem_takeWhile_imp member
  revert part
  decide

end Token

open Token

/-- Items that say the same at corresponding positions. -/
inductive Token.Item.Twin (positions : Nat → Nat → Prop) : Item → Item → Prop
  | token {t u : Token} (tokens : Token.Twin positions t u) : Twin positions (.token t) (.token u)
  | error {fault : LexicalFault} {start start' length : Nat} (starts : positions start start') :
      Twin positions (.error ⟨fault, ⟨start, length⟩⟩) (.error ⟨fault, ⟨start', length⟩⟩)

namespace Token

variable {positions : Nat → Nat → Prop} {base other last : Nat}

theorem item_twin (c : Char) (after : List Char) {start : Nat}
    (inside : positions (base + start) (other + start)) :
    Option.Rel (Item.Twin positions)
      ((munch c after).piece.item? (munch c after).taken (base + start)
        (base + start + Text.byteLength (munch c after).taken))
      ((munch c after).piece.item? (munch c after).taken (other + start)
        (other + start + Text.byteLength (munch c after).taken)) := by
  cases (munch c after).piece with
  | gap => exact .none
  | fault found =>
      unfold Piece.item?
      rw [Nat.add_sub_cancel_left, Nat.add_sub_cancel_left]
      exact .some (.error inside)
  | token kind =>
      refine .some (.token ⟨rfl, rfl, ?_, plain_of_hash rfl munch_hash⟩)
      unfold Token.span
      simp only [Text.byteLength_ofList, Nat.add_sub_cancel_right]
      exact inside

theorem scanFrom_twin (within : ∀ x, x ≤ last → positions (base + x) (other + x)) :
    ∀ (bound : Nat) (items items' : List Item) (start : Nat) (text : List Char),
      List.Forall₂ (Item.Twin positions) items items' → start + Text.byteLength text ≤ last →
        List.Forall₂ (Item.Twin positions) (scanFrom bound items (base + start) text)
          (scanFrom bound items' (other + start) text) := by
  have finish (items items' : List Item) (start : Nat)
      (twins : List.Forall₂ (Item.Twin positions) items items') (inside : start ≤ last) :
      List.Forall₂ (Item.Twin positions) (.token (atEnd (base + start)) :: items).reverse
        (.token (atEnd (other + start)) :: items').reverse := by
    refine List.rel_reverse (.cons (.token ⟨rfl, rfl, ?_, ?_⟩) twins)
    · exact within start inside
    · exact plain_of_hash (show "" = String.ofList [] from rfl) nofun
  intro bound
  induction bound with
  | zero =>
      intro items items' start text twins inside
      have ended := finish items items' start twins (by omega)
      cases text <;> exact ended
  | succ bound ih =>
      intro items items' start text twins inside
      cases text with
      | nil => exact finish items items' start twins (by simpa using inside)
      | cons c after =>
          have whole := congrArg Text.byteLength (munch_append c after)
          rw [Text.byteLength_append] at whole
          have further {items items' : List Item}
              (twins : List.Forall₂ (Item.Twin positions) items items') :=
            ih items items' (start + Text.byteLength (munch c after).taken) (munch c after).rest twins
              (by omega)
          have front := item_twin c after (within start (by omega))
          unfold scanFrom
          rw [← Nat.add_assoc, ← Nat.add_assoc] at further
          dsimp only
          generalize (munch c after).piece.item? _ _ _ = one at front ⊢
          generalize (munch c after).piece.item? _ _ _ = two at front ⊢
          cases front with
          | none => exact further twins
          | some same => exact further (.cons same twins)

theorem scan_twin (source : List Char)
    (within : ∀ x, x ≤ Text.byteLength source → positions (base + x) (other + x)) :
    List.Forall₂ (Item.Twin positions) (scan base source) (scan other source) := by
  have twins := scanFrom_twin within source.length [] [] 0 source .nil (by omega)
  exact twins

/-- The tokens of a text end with the end of the input. -/
theorem ofText_ends (base : Nat) (source : List Char) :
    ∃ token ∈ ofText base source, token.isEnd = true := by
  have ends : ∀ (bound : Nat) (items : List Item) (start : Nat) (text : List Char),
      ∃ stop, .token (atEnd stop) ∈ scanFrom bound items start text := by
    intro bound
    induction bound with
    | zero =>
        intro items start text
        refine ⟨start, ?_⟩
        cases text <;> exact List.mem_reverse.mpr List.mem_cons_self
    | succ bound ih =>
        intro items start text
        cases text with
        | nil => exact ⟨start, List.mem_reverse.mpr List.mem_cons_self⟩
        | cons c after =>
            unfold scanFrom
            dsimp only
            split <;> exact ih _ _ _
  obtain ⟨stop, member⟩ := ends source.length [] base source
  exact ⟨atEnd stop, List.mem_filterMap.mpr ⟨_, member, rfl⟩, rfl⟩

theorem ofText_twin (source : List Char)
    (within : ∀ x, x ≤ Text.byteLength source → positions (base + x) (other + x)) :
    List.Forall₂ (Token.Twin positions) (ofText base source) (ofText other source) := by
  have items := scan_twin source within
  unfold ofText
  generalize scan base source = one at items ⊢
  generalize scan other source = two at items ⊢
  induction items with
  | nil => exact .nil
  | cons same _ ih =>
      cases same with
      | token same => exact .cons same ih
      | error starts => exact ih

/-- The lexical errors of a text, as they are reported. -/
def lexical (base : Nat) (source : List Char) : List Diagnostic :=
  (scan base source).filterMap fun item => item.error?.map (·.diagnostic)

end Token

/-- Diagnostics that say the same at corresponding positions. -/
structure Diagnostic.Twin (positions : Nat → Nat → Prop) (d e : Diagnostic) : Prop where
  kind : d.kind = e.kind
  message : d.message = e.message
  span : Option.Rel (fun s t => positions s.start t.start ∧ s.length = t.length) d.span e.span

namespace Token

variable {positions : Nat → Nat → Prop} {base other : Nat}

theorem lexical_twin (source : List Char)
    (within : ∀ x, x ≤ Text.byteLength source → positions (base + x) (other + x)) :
    List.Forall₂ (Diagnostic.Twin positions) (lexical base source) (lexical other source) := by
  have items := scan_twin source within
  unfold lexical
  generalize scan base source = one at items ⊢
  generalize scan other source = two at items ⊢
  induction items with
  | nil => exact .nil
  | cons same _ ih =>
      cases same with
      | token same => exact ih
      | error starts => exact .cons ⟨rfl, rfl, .some ⟨starts, rfl⟩⟩ ih

/-- A fault at one of two tokens that are twins says the same as at the other. -/
theorem Twin.span {t u : Token} (twin : Token.Twin positions t u) :
    Option.Rel (fun s s' => positions s.start s'.start ∧ s.length = s'.length) (some t.span)
      (some u.span) := by
  refine .some ⟨twin.start, ?_⟩
  unfold Token.span
  rw [twin.lexeme]

end Token

namespace Grammar

variable {r : Reading}

theorem Cursor.like_ofTokens {ts us : List Token} (pairs : List.Forall₂ r.pair ts us)
    (ends : ∃ token ∈ ts, token.isEnd = true) :
    (Cursor.ofTokens ts r.first).Like r (Cursor.ofTokens us r.second) := by
  have both : List.Forall₂ r.pair (ts.takeWhile (!·.isEnd)) (us.takeWhile (!·.isEnd)) ∧
      ∃ t u, ts.find? (·.isEnd) = some t ∧ us.find? (·.isEnd) = some u ∧ r.pair t u := by
    induction pairs with
    | nil =>
        obtain ⟨token, impossible, -⟩ := ends
        cases impossible
    | @cons t u ts us pair rest ih =>
        by_cases isEnd : t.isEnd = true
        · have also : u.isEnd = true := (Reading.isEnd_eq pair).symm.trans isEnd
          simp only [List.takeWhile_cons, List.find?_cons, isEnd, also]
          exact ⟨.nil, t, u, rfl, rfl, pair⟩
        · have also : ¬u.isEnd = true := fun other =>
            isEnd ((Reading.isEnd_eq pair).trans other)
          rw [Bool.not_eq_true] at isEnd also
          simp only [List.takeWhile_cons, List.find?_cons, isEnd, also]
          obtain ⟨token, member, isLast⟩ := ends
          rcases List.mem_cons.mp member with rfl | later
          · rw [isEnd] at isLast
            cases isLast
          · obtain ⟨pending, found⟩ := ih ⟨token, later, isLast⟩
            exact ⟨.cons pair pending, found⟩
  obtain ⟨pending, t, u, found, also, pair⟩ := both
  unfold Cursor.ofTokens
  rw [found, also]
  exact ⟨pending, pair, List.find?_some found, ⟨0, rfl, rfl⟩, .nil⟩

end Grammar
end Lox
