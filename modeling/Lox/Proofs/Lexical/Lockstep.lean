import Lox.Proofs.Lexical.Shared
import Lox.Proofs.Outcome

set_option autoImplicit false

/-! Two runs side by side. From a machine and a memory that correspond, both runs end well and leave a
machine and a memory that correspond, or both stop for the same reason with the same output. Meanwhile
cells are added to new frames, and to the frame of the code that runs only for its own declarations. -/

namespace Lox.Lexical

variable {bindings : Bindings} {w more : World} {m after : Machine} {n last : Memory}
  {own rest : List Slot} {α β γ δ : Type}

/-- A step on both sides. -/
structure Step (bindings : Bindings) (own : List Slot) (w : World) (m : Machine) (more : World)
    (after : Machine) (last : Memory) : Prop where
  le : w.Le more
  shared : Shared bindings more after last
  current : after.environment.current = m.environment.current
  fresh : ∀ place ∈ more.places, place ∈ w.places ∨ w.homes.length ≤ place.1 ∨
    place.1 = m.environment.current.frame ∧ place.2 ∈ own

theorem Step.refl (shared : Shared bindings w m n) : Step bindings own w m w m n :=
  ⟨World.Le.refl w, shared, rfl, fun _ => .inl⟩

theorem Step.still (le : w.Le more) (shared : Shared bindings more after last)
    (current : after.environment.current = m.environment.current)
    (places : more.places = w.places) : Step bindings [] w m more after last := by
  refine ⟨le, shared, current, fun place member => .inl ?_⟩
  rw [← places]
  exact member

/-- A step that adds one cell to the frame of the code that runs. -/
theorem Step.added {slot : Slot} (le : w.Le more) (shared : Shared bindings more after last)
    (current : after.environment.current = m.environment.current)
    (places : more.places = w.places ++ [(m.environment.current.frame, slot)])
    (isOwn : slot ∈ own) : Step bindings own w m more after last := by
  refine ⟨le, shared, current, fun place member => ?_⟩
  rw [places] at member
  rcases List.mem_append.mp member with old | new
  · exact .inl old
  · rw [List.mem_singleton.mp new]
    exact .inr (.inr ⟨rfl, isOwn⟩)

theorem Step.trans {further : World} {final : Machine} {result : Memory}
    (one : Step bindings own w m more after last)
    (two : Step bindings rest more after further final result) :
    Step bindings (own ++ rest) w m further final result := by
  refine ⟨one.le.trans two.le, two.shared, two.current.trans one.current, fun place member => ?_⟩
  rcases two.fresh place member with early | new | inRest
  · rcases one.fresh place early with old | new | inOwn
    · exact .inl old
    · exact .inr (.inl new)
    · exact .inr (.inr ⟨inOwn.1, List.mem_append_left _ inOwn.2⟩)
  · exact .inr (.inl (Nat.le_trans one.le.homes.length_le new))
  · exact .inr (.inr ⟨inRest.1.trans (congrArg Chain.frame one.current),
      List.mem_append_right _ inRest.2⟩)

/-- Both end well and correspond, or both stop for the same reason with the same output. -/
def Agree (bindings : Bindings) (own : List Slot) (w : World) (m : Machine)
    (good : World → α → β → Prop) :
    EStateM.Result Stop Machine α → EStateM.Result Stop Memory β → Prop
  | .ok a after, .ok b last => ∃ more, Step bindings own w m more after last ∧ good more a b
  | .error stop after, .error other last => stop = other ∧ after.output = last.output
  | _, _ => False

theorem Agree.later {good : World → α → β → Prop} {real : EStateM.Result Stop Machine α}
    {plain : EStateM.Result Stop Memory β} (step : Step bindings own w m more after last)
    (agree : Agree bindings rest more after good real plain) :
    Agree bindings (own ++ rest) w m good real plain := by
  cases real with
  | ok a final =>
      cases plain with
      | ok b result =>
          obtain ⟨further, later, isGood⟩ := agree
          exact ⟨further, step.trans later, isGood⟩
      | error other result => exact agree
  | error stop final =>
      cases plain with
      | ok b result => exact agree
      | error other result => exact agree

def Lockstep (bindings : Bindings) (own : List Slot) (w : World) (m : Machine) (n : Memory)
    (real : Exec α) (plain : Run β) (good : World → α → β → Prop) : Prop :=
  Agree bindings own w m good (real m) (plain n)

namespace Lockstep

variable {real : Exec α} {plain : Run β} {good : World → α → β → Prop}

theorem of_ok {a : α} {b : β} (realOk : real m = .ok a after) (plainOk : plain n = .ok b last)
    (step : Step bindings own w m more after last) (isGood : good more a b) :
    Lockstep bindings own w m n real plain good := by
  rw [Lockstep, realOk, plainOk]
  exact ⟨more, step, isGood⟩

theorem of_error {stop : Stop} (realError : real m = .error stop after)
    (plainError : plain n = .error stop last) (output : after.output = last.output) :
    Lockstep bindings own w m n real plain good := by
  rw [Lockstep, realError, plainError]
  exact ⟨rfl, output⟩

/-- How two runs in lockstep end. -/
theorem ends (lockstep : Lockstep bindings own w m n real plain good) :
    (∃ a b more after last, real m = .ok a after ∧ plain n = .ok b last ∧
      Step bindings own w m more after last ∧ good more a b) ∨
    ∃ stop after last, real m = .error stop after ∧ plain n = .error stop last ∧
      after.output = last.output := by
  unfold Lockstep at lockstep
  cases realResult : real m with
  | ok a after =>
      cases plainResult : plain n with
      | ok b last =>
          rw [realResult, plainResult] at lockstep
          obtain ⟨more, step, isGood⟩ := lockstep
          exact .inl ⟨a, b, more, after, last, rfl, rfl, step, isGood⟩
      | error other last =>
          rw [realResult, plainResult] at lockstep
          exact lockstep.elim
  | error stop after =>
      cases plainResult : plain n with
      | ok b last =>
          rw [realResult, plainResult] at lockstep
          exact lockstep.elim
      | error other last =>
          rw [realResult, plainResult] at lockstep
          obtain ⟨rfl, output⟩ := lockstep
          exact .inr ⟨stop, after, last, rfl, rfl, output⟩

theorem congr {first : Exec α} {second : Run β}
    (lockstep : Lockstep bindings own w m n first second good) (realSame : real m = first m)
    (plainSame : plain n = second n) : Lockstep bindings own w m n real plain good := by
  rw [Lockstep, realSame, plainSame]
  exact lockstep

theorem pure {a : α} {b : β} (shared : Shared bindings w m n) (isGood : good w a b) :
    Lockstep bindings own w m n (return a) (return b) good :=
  of_ok rfl rfl (Step.refl shared) isGood

theorem fail (shared : Shared bindings w m n) (fault : RuntimeFault) (token : Token) :
    Lockstep bindings own w m n (Exec.fail fault token) (Run.fail fault token) good :=
  of_error rfl rfl shared.objects.output.symm

theorem bind_of_ok {next : World → γ → δ → Prop} {first : α → Exec γ} {second : β → Run δ} {a : α}
    {b : β} (realOk : real m = .ok a after) (plainOk : plain n = .ok b last)
    (step : Step bindings own w m more after last)
    (later : Lockstep bindings rest more after last (first a) (second b) next) :
    Lockstep bindings (own ++ rest) w m n (real >>= first) (plain >>= second) next := by
  rw [Lockstep, Outcome.bind_of_ok realOk, Outcome.bind_of_ok plainOk]
  exact Agree.later step later

theorem bind {next : World → γ → δ → Prop} {first : α → Exec γ} {second : β → Run δ}
    (one : Lockstep bindings own w m n real plain good)
    (two : ∀ a b more after last, Step bindings own w m more after last → good more a b →
      Lockstep bindings rest more after last (first a) (second b) next) :
    Lockstep bindings (own ++ rest) w m n (real >>= first) (plain >>= second) next := by
  rcases one.ends with ⟨a, b, more, after, last, realOk, plainOk, step, isGood⟩ |
    ⟨stop, after, last, realError, plainError, output⟩
  · exact bind_of_ok realOk plainOk step (two a b more after last step isGood)
  · exact of_error (Outcome.bind_of_error realError) (Outcome.bind_of_error plainError) output

/-- A second part that adds no cell to the frame of the code that runs. -/
theorem bind_still {next : World → γ → δ → Prop} {first : α → Exec γ} {second : β → Run δ}
    (one : Lockstep bindings own w m n real plain good)
    (two : ∀ a b more after last, Step bindings own w m more after last → good more a b →
      Lockstep bindings [] more after last (first a) (second b) next) :
    Lockstep bindings own w m n (real >>= first) (plain >>= second) next := by
  rw [← List.append_nil own]
  exact one.bind two

/-- A memory yields something else in the end. -/
theorem yield {next : World → α → δ → Prop} (g : β → δ)
    (lockstep : Lockstep bindings own w m n real plain good)
    (improves : ∀ more after last a b, Step bindings own w m more after last → good more a b →
      next more a (g b)) :
    Lockstep bindings own w m n real (plain >>= fun b => Pure.pure (g b)) next := by
  have both : Lockstep bindings own w m n (real >>= Pure.pure)
      (plain >>= fun b => Pure.pure (g b)) next :=
    lockstep.bind_still fun a b more after last step isGood =>
      pure step.shared (improves more after last a b step isGood)
  rw [bind_pure] at both
  exact both

theorem map {next : World → γ → δ → Prop} (f : α → γ) (g : β → δ)
    (lockstep : Lockstep bindings own w m n real plain good)
    (improves : ∀ more a b, good more a b → next more (f a) (g b)) :
    Lockstep bindings own w m n (f <$> real) (g <$> plain) next := by
  rw [map_eq_pure_bind, map_eq_pure_bind]
  exact lockstep.bind_still fun a b more after last step isGood =>
    pure step.shared (improves more a b isGood)

theorem capture_bind {first : Chain → Exec α}
    (rest : Lockstep bindings own w m n (first m.environment.current) plain good) :
    Lockstep bindings own w m n (Exec.capture >>= first) plain good :=
  rest

theorem get_bind {first : Machine → Exec α} {second : Memory → Run β}
    (rest : Lockstep bindings own w m n (first m) (second n) good) :
    Lockstep bindings own w m n (get >>= first) (get >>= second) good :=
  rest

theorem modifyGet_bind {f : Machine → α × Machine} {g : Memory → β × Memory}
    {next : World → γ → δ → Prop} {first : α → Exec γ} {second : β → Run δ}
    (step : Step bindings own w m more (f m).2 (g n).2)
    (later : Lockstep bindings rest more (f m).2 (g n).2 (first (f m).1) (second (g n).1) next) :
    Lockstep bindings (own ++ rest) w m n (modifyGet f >>= first) (modifyGet g >>= second) next :=
  bind_of_ok rfl rfl step later

theorem modify_bind {f : Machine → Machine} {g : Memory → Memory} {next : World → γ → δ → Prop}
    {first : Unit → Exec γ} {second : Unit → Run δ} (step : Step bindings own w m more (f m) (g n))
    (later : Lockstep bindings rest more (f m) (g n) (first ()) (second ()) next) :
    Lockstep bindings (own ++ rest) w m n (modify f >>= first) (modify g >>= second) next :=
  bind_of_ok rfl rfl step later

/-- The machine runs in a new frame, to which some slots belong. -/
theorem within (chain : Chain) (home : List Slot)
    (inner : Lockstep bindings own (w.enter home)
      { m with environment := m.environment.graft chain } n real plain good)
    (size : m.environment.frames.size = w.homes.length) :
    Lockstep bindings [] w m n (Exec.within chain real) plain good := by
  rcases inner.ends with ⟨a, b, more, after, last, realOk, plainOk, step, isGood⟩ |
    ⟨stop, after, last, realError, plainError, output⟩
  · have le := (w.le_enter home).trans step.le
    have ended : Exec.within chain real m = .ok a
        { after with environment := after.environment.restore m.environment.current } := by
      simp only [Exec.within, realOk]
    refine of_ok ended plainOk ⟨le, step.shared.restore _, rfl, fun place member => ?_⟩ isGood
    rcases step.fresh place member with old | new | inOwn
    · exact .inl old
    · refine .inr (.inl (Nat.le_trans ?_ new))
      exact (w.le_enter home).homes.length_le
    · refine .inr (.inl (Nat.le_of_eq ?_))
      rw [inOwn.1]
      exact size.symm
  · have ended : Exec.within chain real m = .error stop
        { after with environment := after.environment.restore m.environment.current } := by
      simp only [Exec.within, realError]
    exact of_error ended plainError output

theorem deeper
    (inner : Lockstep bindings own w { m with depth := m.depth + 1 }
      { n with depth := n.depth + 1 } real plain good) :
    Lockstep bindings own w m n (Exec.deeper real) (Run.deeper plain) good := by
  rcases inner.ends with ⟨a, b, more, after, last, realOk, plainOk, step, isGood⟩ |
    ⟨stop, after, last, realError, plainError, output⟩
  · have realEnded : Exec.deeper real m = .ok a { after with depth := after.depth - 1 } := by
      simp only [Exec.deeper, realOk]
    have plainEnded : Run.deeper plain n = .ok b { last with depth := after.depth - 1 } := by
      simp only [Run.deeper, plainOk, step.shared.objects.depth]
    exact of_ok realEnded plainEnded
      ⟨step.le, step.shared.atDepth (after.depth - 1), step.current, step.fresh⟩ isGood
  · have realEnded : Exec.deeper real m = .error stop { after with depth := after.depth - 1 } := by
      simp only [Exec.deeper, realError]
    have plainEnded : Run.deeper plain n = .error stop { last with depth := last.depth - 1 } := by
      simp only [Run.deeper, plainError]
    exact of_error realEnded plainEnded output

end Lockstep
end Lox.Lexical
