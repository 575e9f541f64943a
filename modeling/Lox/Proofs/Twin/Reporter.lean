import Lox.Proofs.Twin.Machine
import Lox.Reporter

set_option autoImplicit false

/-! Two reporters that say the same. They find the same text at corresponding positions, whatever other
texts they know, and so they show diagnostics alike that are twins. -/

namespace Lox

namespace Reporter

theorem nextBase_addSource (r : Reporter) (text : String) :
    (r.addSource text).nextBase = r.nextBase + text.utf8ByteSize + 1 := rfl

/-- The text that was added last is found behind its base. -/
theorem sourceAt_addSource (r : Reporter) (text : String) (x : Nat) :
    (r.addSource text).sourceAt (r.nextBase + x) = (text, x) := by
  unfold sourceAt addSource
  rw [List.find?_cons_of_pos (by simp)]
  exact congrArg (Prod.mk text) (Nat.add_sub_cancel_left _ _)

/-- Earlier texts are found as before. -/
theorem sourceAt_addSource_of_lt (r : Reporter) (text : String) {p : Nat} (before : p < r.nextBase) :
    (r.addSource text).sourceAt p = r.sourceAt p := by
  unfold sourceAt addSource
  rw [List.find?_cons_of_neg (by simpa using before)]

/-- Two reporters that show corresponding positions alike and have shown the same since they began. -/
structure Twin (positions : Nat → Nat → Prop) (start start' : Sink) (one two : Reporter) : Prop where
  style : one.style = two.style
  places : ∀ p q, positions p q → one.sourceAt p = two.sourceAt q
  inside : ∀ p q, positions p q → p < one.nextBase ∧ q < two.nextBase
  sink : Sink.Echo start start' one.sink two.sink

/-- Two reporters that have counted the same errors of the current run as well. -/
structure Abreast (positions : Nat → Nat → Prop) (start start' : Sink) (one two : Reporter) : Prop
    extends Twin positions start start' one two where
  errors : one.errors = two.errors
  runtimeFailure : one.runtimeFailure = two.runtimeFailure

/-- The positions of a further text as well. -/
def further (positions : Nat → Nat → Prop) (one two : Reporter) (text : String) (p q : Nat) : Prop :=
  positions p q ∨ ∃ x, x ≤ text.utf8ByteSize ∧ p = one.nextBase + x ∧ q = two.nextBase + x

variable {positions : Nat → Nat → Prop} {start start' : Sink} {one two : Reporter}

theorem further_of_text (positions : Nat → Nat → Prop) (one two : Reporter) (text : List Char)
    {x : Nat} (inside : x ≤ Text.byteLength text) :
    further positions one two (String.ofList text) (one.nextBase + x) (two.nextBase + x) := by
  refine .inr ⟨x, ?_, rfl, rfl⟩
  rw [Text.byteLength_ofList]
  exact inside

/-- Two runs of one text begin alike. -/
theorem Twin.addSource (twin : Twin positions start start' one two) (text : String) :
    Abreast (further positions one two text) start start' (one.addSource text)
      (two.addSource text) where
  style := twin.style
  places p q place := by
    rcases place with before | ⟨x, -, rfl, rfl⟩
    · obtain ⟨below, below'⟩ := twin.inside p q before
      rw [sourceAt_addSource_of_lt one text below, sourceAt_addSource_of_lt two text below']
      exact twin.places p q before
    · rw [sourceAt_addSource, sourceAt_addSource]
  inside p q place := by
    rw [nextBase_addSource, nextBase_addSource]
    rcases place with before | ⟨x, small, rfl, rfl⟩
    · have below := twin.inside p q before
      omega
    · omega
  sink := twin.sink
  errors := rfl
  runtimeFailure := rfl

end Reporter

namespace Diagnostic.Twin

variable {positions : Nat → Nat → Prop} {d e : Diagnostic}

theorem render_eq (twin : Diagnostic.Twin positions d e) (style : ReportStyle) (source : List Char)
    (start length : Nat) : d.render style source start length = e.render style source start length := by
  unfold Diagnostic.render
  rw [twin.kind, twin.message]

theorem isRuntime_eq (twin : Diagnostic.Twin positions d e) : d.isRuntime = e.isRuntime := by
  unfold isRuntime
  rw [twin.kind]

end Diagnostic.Twin

namespace Reporter

variable {positions : Nat → Nat → Prop} {start start' : Sink} {one two : Reporter}

theorem Twin.render_eq (twin : Twin positions start start' one two) {d e : Diagnostic}
    (same : Diagnostic.Twin positions d e) : one.render d = two.render e := by
  have span := same.span
  unfold Reporter.render
  generalize d.span = s at span ⊢
  generalize e.span = t at span ⊢
  cases span with
  | none => simp only [same.kind, same.message]
  | some place => simp only [twin.places _ _ place.1, place.2, twin.style, same.render_eq]

theorem Abreast.report (abreast : Abreast positions start start' one two) {d e : Diagnostic}
    (same : Diagnostic.Twin positions d e) :
    Abreast positions start start' (one.report d) (two.report e) where
  style := abreast.style
  places := abreast.places
  inside := abreast.inside
  sink := by
    unfold Reporter.report
    rw [abreast.render_eq same]
    exact abreast.sink.accept _
  errors := congrArg (· + 1) abreast.errors
  runtimeFailure := congrArg₂ (· || ·) abreast.runtimeFailure same.isRuntime_eq

theorem Abreast.reportAll (abreast : Abreast positions start start' one two)
    {ds es : List Diagnostic} (same : List.Forall₂ (Diagnostic.Twin positions) ds es) :
    Abreast positions start start' (one.reportAll ds) (two.reportAll es) := by
  unfold Reporter.reportAll
  induction same generalizing one two with
  | nil => exact abreast
  | cons head _ ih => exact ih (abreast.report head)

theorem Abreast.exit_eq (abreast : Abreast positions start start' one two) :
    one.exit = two.exit := by
  unfold Reporter.exit
  rw [abreast.errors, abreast.runtimeFailure]

theorem Abreast.checkpoint_eq (abreast : Abreast positions start start' one two) :
    one.checkpoint = two.checkpoint := by
  unfold Reporter.checkpoint
  rw [abreast.errors, abreast.exit_eq]

end Reporter
end Lox
