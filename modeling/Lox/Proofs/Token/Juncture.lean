import Lox.Proofs.Token.Lines
import Lox.Proofs.Twin.Reporter

set_option autoImplicit false

/-! Texts that are read one after another. A reporter gives each text the position that it would have in all
of them together, with newlines between, and so every text has the same items alone and among the others,
as long as none before it ends in an open string. -/

namespace Lox.Token

open Text (byteLength)

theorem closed_of_scan {base : Nat} {text : List Char}
    (closed : ∀ e, .error e ∈ scan base text → e.fault ≠ .unterminated) : Closed (body base text) := by
  intro e member
  rw [scan_eq_body] at closed
  exact closed e (List.mem_append_left _ member)

theorem scan_append_newline (base : Nat) (first second : List Char)
    (closed : ∀ e, .error e ∈ scan base first → e.fault ≠ .unterminated) :
    scan base (first ++ '\n' :: second) =
      body base first ++ scan (base + byteLength first + 1) second := by
  have newline : Char.utf8Size '\n' = 1 := rfl
  rw [scan_eq_body, scan_eq_body, body_newline second (closed_of_scan closed), List.append_assoc,
    Text.byteLength_append, Text.byteLength_cons, newline]
  simp only [Nat.add_assoc]

theorem nextBase_ofList (reporter : Reporter) (text : List Char) :
    (reporter.addSource (String.ofList text)).nextBase = reporter.nextBase + byteLength text + 1 := by
  rw [Reporter.nextBase_addSource, Text.byteLength_ofList]

/-- The items of two texts with a newline between them are those of the first, without the end of the
input, and those of the second, at the position that a reporter gives to it after the first. -/
theorem scan_of_newline (base : Nat) (first second : List Char)
    (closed : ∀ e, .error e ∈ scan base first → e.fault ≠ .unterminated) :
    (∃ items, scan base first = items ++ [.token (atEnd (base + byteLength first))] ∧
      scan base (first ++ '\n' :: second) = items ++ scan (base + byteLength first + 1) second) ∧
    ∀ reporter : Reporter, reporter.nextBase = base →
      (reporter.addSource (String.ofList first)).nextBase = base + byteLength first + 1 := by
  constructor
  · exact ⟨body base first, scan_eq_body base first, scan_append_newline base first second closed⟩
  · rintro reporter rfl
    exact nextBase_ofList reporter first

/-- An unexpected character, of three bytes, is no obstacle. -/
theorem scan_of_newline_for_arrow :
    (∀ e, .error e ∈ scan 4 "a → // b".toList → e.fault ≠ .unterminated) ∧
    ((∃ items, scan 4 "a → // b".toList = items ++ [.token (atEnd (4 + byteLength "a → // b".toList))] ∧
      scan 4 ("a → // b".toList ++ '\n' :: "\"c".toList) =
        items ++ scan (4 + byteLength "a → // b".toList + 1) "\"c".toList) ∧
    ∀ reporter : Reporter, reporter.nextBase = 4 →
      (reporter.addSource (String.ofList "a → // b".toList)).nextBase =
        4 + byteLength "a → // b".toList + 1) := by
  have closed : ∀ e, .error e ∈ scan 4 "a → // b".toList → e.fault ≠ .unterminated := by
    intro e member unterminated
    have errors : (scan 4 "a → // b".toList).filterMap Item.error? =
        [⟨.unexpected '→', ⟨6, 3⟩⟩] := by decide +kernel
    have isError : e ∈ (scan 4 "a → // b".toList).filterMap Item.error? :=
      List.mem_filterMap.mpr ⟨_, member, rfl⟩
    rw [errors, List.mem_singleton] at isError
    subst isError
    cases unterminated
  exact ⟨closed, scan_of_newline 4 _ _ closed⟩

/-! ### Any number of texts -/

/-- Texts with a newline behind each, and a last one. -/
def joined (texts : List (List Char)) (last : List Char) : List Char :=
  match texts with
  | [] => last
  | text :: texts => text ++ '\n' :: joined texts last

/-- The last of several texts, at the position that a reporter gives to it after the others, has the
items with which those of all texts together end. -/
theorem scan_of_sources (texts : List (List Char)) (last : List Char)
    (closed : ∀ text ∈ texts, ∀ base e, .error e ∈ scan base text → e.fault ≠ .unterminated)
    (reporter : Reporter) :
    scan ((texts.map String.ofList).foldl Reporter.addSource reporter).nextBase last <:+
      scan reporter.nextBase (joined texts last) := by
  induction texts generalizing reporter with
  | nil => exact List.suffix_rfl
  | cons text texts ih =>
      have first := closed text List.mem_cons_self reporter.nextBase
      have rest := ih (fun other member => closed other (List.mem_cons_of_mem _ member))
        (reporter.addSource (String.ofList text))
      rw [nextBase_ofList] at rest
      rw [joined, scan_append_newline _ _ _ first]
      exact rest.trans (List.suffix_append _ _)

end Lox.Token
