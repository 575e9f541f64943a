import Lox.Proofs.Limit.Sink

set_option autoImplicit false

/-! Two runs of one piece of code, one of which writes to a sink with a limit. Either all that the other
writes fits, and they end alike; or the limited run stops at the first moment at which something does
not fit, and leaves what there was at that moment. Sequences, frames, calls and loops are curtailed in
this way if their parts are. -/

namespace Lox

variable {α β : Type} {most : Nat}

namespace Record

variable {r middle after : Record} {last : Machine}

theorem Since.now {good : Moment → Prop} (since : r.Since good after) (here : good r.now) :
    good after.now := by
  obtain ⟨later, same, isGood⟩ := since
  cases later with
  | nil => exact (List.cons.inj same).1 ▸ here
  | cons moment rest => exact (List.cons.inj same).1 ▸ isGood moment List.mem_cons_self

/-- A record goes on, and the output with it. -/
structure Grows (r after : Record) : Prop where
  since : r.Since (fun _ => True) after
  begins : r.now.machine.output.Begins after.now.machine.output

theorem Grows.refl (r : Record) : r.Grows r :=
  ⟨.refl r, .refl _⟩

theorem Grows.trans (one : r.Grows middle) (two : middle.Grows after) : r.Grows after :=
  ⟨one.since.trans two.since, one.begins.trans two.begins⟩

theorem grows_next {moment : Moment} (begins : r.now.machine.output.Begins moment.machine.output) :
    r.Grows (r.next moment) :=
  ⟨.next trivial, begins⟩

/-- Between two records more is written than so many bytes, and a machine is what there was at the first
moment of which this is true, with its output capped and no matter where it stands. -/
def Overruns (most : Nat) (r after : Record) (last : Machine) : Prop :=
  ∃ later first earlier, after.moments = later ++ first :: (earlier ++ r.moments) ∧
    (∀ moment ∈ earlier, moment.machine.output.Fits most) ∧ first.machine.output.Exceeds most ∧
      first.machine.output.Begins after.now.machine.output ∧
        last.reset = (first.machine.capped most).reset

theorem Overruns.grow (overruns : r.Overruns most middle last) (grows : middle.Grows after) :
    r.Overruns most after last := by
  obtain ⟨later, first, earlier, same, fit, exceeds, begins, left⟩ := overruns
  obtain ⟨⟨more, further, -⟩, still⟩ := grows
  refine ⟨more ++ later, first, earlier, ?_, fit, exceeds, begins.trans still, left⟩
  rw [further, same, List.append_assoc]

theorem Overruns.since (since : r.Since (·.machine.output.Fits most) middle)
    (overruns : middle.Overruns most after last) : r.Overruns most after last := by
  obtain ⟨before, first, fitBefore⟩ := since
  obtain ⟨later, moment, earlier, same, fit, exceeds, begins, left⟩ := overruns
  refine ⟨later, moment, earlier ++ before, ?_, fun other member => ?_, exceeds, begins, left⟩
  · rw [same, first, List.append_assoc]
  · rcases List.mem_append.mp member with late | early
    · exact fit other late
    · exact fitBefore other early

theorem overruns_next {moment : Moment} (exceeds : moment.machine.output.Exceeds most)
    (left : last.reset = (moment.machine.capped most).reset) :
    r.Overruns most (r.next moment) last :=
  ⟨[], moment, [], rfl, nofun, exceeds, .refl _, left⟩

end Record

/-- A result of a recorded run without a limit, and one of a run with a limit: they are the same but for
the limit, or what is written does not fit and the second run stops there. -/
inductive Curtails (most : Nat) (r : Record) :
    EStateM.Result Stop Record α → EStateM.Result Stop Machine α → Prop
  | fits {result : EStateM.Result Stop Record α}
      (since : r.Since (·.machine.output.Fits most) (Outcome.state result)) :
      Curtails most r result (Outcome.onState (·.capped most) (Traced.forget result))
  | overruns {result : EStateM.Result Stop Record α} {last : Machine}
      (overruns : r.Overruns most (Outcome.state result) last) :
      Curtails most r result (.error (.error (.outputFailed .full)) last)

namespace Curtails

variable {r middle : Record} {result : EStateM.Result Stop Record α}
  {capped : EStateM.Result Stop Machine α}

theorem since (since : r.Since (·.machine.output.Fits most) middle)
    (curtails : Curtails most middle result capped) : Curtails most r result capped := by
  cases curtails with
  | fits more => exact .fits (since.trans more)
  | overruns overruns => exact .overruns (overruns.since since)

/-- A step before and another one after it, which do not write. -/
theorem around (before after : Machine → Machine) (fits : r.now.machine.output.Fits most)
    (enters : (before r.now.machine).output = r.now.machine.output)
    (silent : ∀ m, (after m).output = m.output)
    (commutes : ∀ m, after (m.capped most) = (after m).capped most)
    (forgets : ∀ m, (after m).reset = m.reset)
    (inner : Curtails most (r.become (before r.now.machine)) result capped) :
    Curtails most r (Outcome.onState (fun last => last.become (after last.now.machine)) result)
      (Outcome.onState after capped) := by
  have entered : r.Since (·.machine.output.Fits most) (r.become (before r.now.machine)) := by
    refine .next ?_
    rw [enters]
    exact fits
  cases inner with
  | fits since =>
      have same : Outcome.onState after (Outcome.onState (·.capped most) (Traced.forget result)) =
          Outcome.onState (·.capped most) (Traced.forget
            (Outcome.onState (fun last : Record => last.become (after last.now.machine)) result)) := by
        cases result <;> exact congrArg _ (commutes _)
      rw [same]
      refine .fits ?_
      rw [Outcome.state_onState]
      refine (entered.trans since).trans (.next ?_)
      rw [silent]
      exact since.now (entered.now fits)
  | overruns overruns =>
      refine .overruns ?_
      rw [Outcome.state_onState]
      obtain ⟨later, first, earlier, same, fit, exceeds, begins, left⟩ := overruns.since entered
      refine ⟨_ :: later, first, earlier, congrArg _ same, fit, exceeds, ?_, (forgets _).trans left⟩
      change first.machine.output.Begins (after (Outcome.state result).now.machine).output
      rw [silent]
      exact begins

end Curtails

/-- Code that is curtailed by a limit: from every record that fits. -/
structure Curtailed (most : Nat) (traced : Traced α) (plain : Exec α) : Prop where
  grows : ∀ r : Record, r.Grows (Outcome.state (traced r))
  curtails : ∀ r : Record, r.now.machine.output.Fits most →
    Curtails most r (traced r) (plain (r.now.machine.capped most))

namespace Curtailed

variable {traced : Traced α} {plain : Exec α}

theorem pure (a : α) : Curtailed most (return a) (return a) :=
  ⟨fun r => .refl r, fun r _ => .fits (.refl r)⟩

theorem throw (stop : Stop) : Curtailed most (throw stop : Traced α) (throw stop) :=
  ⟨fun r => .refl r, fun r _ => .fits (.refl r)⟩

theorem bind {first : α → Traced β} {second : α → Exec β} (one : Curtailed most traced plain)
    (two : ∀ a, Curtailed most (first a) (second a)) :
    Curtailed most (traced >>= first) (plain >>= second) := by
  constructor
  · intro r
    have grows := one.grows r
    cases result : traced r with
    | ok a middle =>
        rw [result] at grows
        rw [Outcome.bind_of_ok result]
        exact grows.trans ((two a).grows middle)
    | error stop middle =>
        rw [result] at grows
        rw [Outcome.bind_of_error result]
        exact grows
  · intro r fits
    have whole := one.curtails r fits
    have more (a : α) (middle : Record) := (two a).grows middle
    change Curtails most r (EStateM.bind traced first r) (EStateM.bind plain second _)
    unfold EStateM.bind
    generalize traced r = here at whole ⊢
    generalize plain _ = there at whole ⊢
    cases whole with
    | fits since =>
        cases here with
        | ok a middle => exact ((two a).curtails middle (since.now fits)).since since
        | error stop middle => exact .fits since
    | overruns overruns =>
        refine .overruns ?_
        cases here with
        | ok a middle => exact overruns.grow (more a middle)
        | error stop middle => exact overruns

theorem map (f : α → β) (curtailed : Curtailed most traced plain) :
    Curtailed most (f <$> traced) (f <$> plain) := by
  rw [map_eq_pure_bind, map_eq_pure_bind]
  exact curtailed.bind fun a => pure (f a)

theorem machine_bind {first : Machine → Traced β} {second : Machine → Exec β}
    (rest : ∀ m : Machine, Curtailed most (first m) (second (m.capped most))) :
    Curtailed most (Traced.machine >>= first) (get >>= second) :=
  ⟨fun r => (rest r.now.machine).grows r, fun r fits => (rest r.now.machine).curtails r fits⟩

theorem capture_bind {first : Chain → Traced β} {second : Chain → Exec β}
    (rest : ∀ chain, Curtailed most (first chain) (second chain)) :
    Curtailed most (Traced.capture >>= first) (Exec.capture >>= second) :=
  ⟨fun r => (rest _).grows r, fun r fits => (rest _).curtails r fits⟩

/-- One step that does not write, with a note of what it declares. -/
theorem of_blind (note : List String → List String) (blind : plain.Blind)
    (notes : ∀ r, traced r = match plain r.now.machine with
      | .ok a m => .ok a (r.next ⟨m, note r.now.declared⟩)
      | .error stop m => .error stop (r.become m)) : Curtailed most traced plain := by
  constructor
  · intro r
    have silent := blind.silent r.now.machine
    rw [notes]
    cases result : plain r.now.machine <;> rw [result] at silent <;>
      exact Record.grows_next (silent ▸ .refl _)
  · intro r fits
    have silent := blind.silent r.now.machine
    rw [notes, blind.capped]
    cases result : plain r.now.machine with
    | ok a last =>
        rw [result] at silent
        change Curtails most r (.ok a (r.next ⟨last, note r.now.declared⟩)) _
        exact .fits (.next (silent ▸ fits))
    | error stop last =>
        rw [result] at silent
        change Curtails most r (.error stop (r.become last)) _
        exact .fits (.next (silent ▸ fits))

theorem step (blind : plain.Blind) : Curtailed most (Traced.step plain) plain :=
  of_blind id blind fun _ => rfl

theorem enter (ctx : Context) (id : NodeId) (name : Token) (value : Value) :
    Curtailed most (Traced.enter ctx id name value) (Exec.declare ctx id name value) :=
  of_blind (name.lexeme :: ·) (Exec.blind_declare ctx id name value) fun r => by
    unfold Traced.enter
    cases Exec.declare ctx id name value r.now.machine <;> rfl

/-- The one step that writes. If something does not fit, this is the moment. -/
theorem print (value : Value) : Curtailed most (Traced.step (Exec.print value)) (Exec.print value) := by
  constructor
  · intro r
    have begins := Exec.adds_print value r.now.machine
    unfold Traced.step
    cases result : Exec.print value r.now.machine <;> rw [result] at begins <;>
      exact Record.grows_next begins
  · intro r fits
    let text := r.now.machine.text value ++ "\n"
    let written : Machine := { r.now.machine with output := r.now.machine.output.accept text }
    have printed : Exec.print value r.now.machine = .ok () written := by
      exact Exec.write_of_delivered (fits.failure? text)
    have wrote : Traced.step (Exec.print value) r = .ok () (r.become written) := by
      unfold Traced.step
      rw [printed]
    have output : { r.now.machine.capped most with
        output := (r.now.machine.output.capped most).accept text } = written.capped most := by
      rw [fits.accept_capped]
      rfl
    rw [wrote]
    change Curtails most r _ (Exec.write text (r.now.machine.capped most))
    rcases Sink.fits_or_exceeds (fits.accept text) most with still | exceeds
    · have delivered := Exec.write_of_delivered (m := r.now.machine.capped most)
        (fits.failure?_of_fits still)
      rw [delivered.trans (congrArg (EStateM.Result.ok ()) output)]
      exact .fits (.next still)
    · have failed := Exec.write_of_failed (m := r.now.machine.capped most)
        (fits.failure?_of_exceeds exceeds)
      rw [failed.trans (congrArg (EStateM.Result.error _) output)]
      exact .overruns (Record.overruns_next exceeds rfl)

section

variable (before after : Machine → Machine) {r : Record}
  (enters : (before r.now.machine).output = r.now.machine.output)
  (silent : ∀ m, (after m).output = m.output)
include enters silent

theorem around_grows (inner : Curtailed most traced plain) :
    r.Grows (Outcome.state (Traced.around before after traced r)) := by
  have entered : r.Grows (r.become (before r.now.machine)) :=
    Record.grows_next (enters ▸ .refl _)
  have grows := entered.trans (inner.grows (r.become (before r.now.machine)))
  unfold Traced.around
  cases result : traced (r.become (before r.now.machine)) <;> rw [result] at grows <;>
    exact grows.trans (Record.grows_next (silent _ ▸ .refl _))

theorem around_curtails (inner : Curtailed most traced plain)
    (fits : r.now.machine.output.Fits most)
    (capped : before (r.now.machine.capped most) = (before r.now.machine).capped most)
    (commutes : ∀ m, after (m.capped most) = (after m).capped most)
    (forgets : ∀ m, (after m).reset = m.reset) :
    Curtails most r (Traced.around before after traced r)
      (Exec.around before after plain (r.now.machine.capped most)) := by
  have curtails := (inner.curtails (r.become (before r.now.machine)) (enters ▸ fits)).around before
    after fits enters silent commutes forgets
  have here : Traced.around before after traced r = Outcome.onState
      (fun last => last.become (after last.now.machine)) (traced (r.become (before r.now.machine))) := by
    unfold Traced.around
    cases traced (r.become (before r.now.machine)) <;> rfl
  have there : Exec.around before after plain (r.now.machine.capped most) =
      Outcome.onState after (plain ((before r.now.machine).capped most)) := by
    unfold Exec.around
    rw [capped]
    cases plain ((before r.now.machine).capped most) <;> rfl
  rw [here, there]
  exact curtails

end

theorem within (chain : Chain) (inner : Curtailed most traced plain) :
    Curtailed most (Traced.within chain traced) (Exec.within chain plain) := by
  let enter (m : Machine) : Machine := { m with environment := m.environment.graft chain }
  let leave (r : Record) (m : Machine) : Machine :=
    { m with environment := m.environment.restore r.now.machine.environment.current }
  constructor
  · exact fun r => around_grows enter (leave r) rfl (fun _ => rfl) inner
  · exact fun r fits => around_curtails enter (leave r) rfl (fun _ => rfl) inner fits rfl
      (fun _ => rfl) fun _ => rfl

theorem deeper (inner : Curtailed most traced plain) :
    Curtailed most (Traced.deeper traced) (Exec.deeper plain) := by
  let enter (m : Machine) : Machine := { m with depth := m.depth + 1 }
  let leave (m : Machine) : Machine := { m with depth := m.depth - 1 }
  constructor
  · exact fun r => around_grows enter leave rfl (fun _ => rfl) inner
  · exact fun r fits => around_curtails enter leave rfl (fun _ => rfl) inner fits rfl (fun _ => rfl)
      fun _ => rfl

theorem repeatWhile {test : Traced Bool} {plainTest : Exec Bool} {round : Traced Flow}
    {plainRound : Exec Flow} (tests : Curtailed most test plainTest)
    (runs : Curtailed most round plainRound) :
    ∀ rounds : Nat, Curtailed most (Traced.repeatWhile test round rounds)
      (Exec.repeatWhile plainTest plainRound rounds) := by
  intro rounds
  induction rounds with
  | zero => exact throw .exhausted
  | succ rounds ih =>
      rw [Exec.repeatWhile_succ]
      refine tests.bind fun holds => ?_
      cases holds with
      | false => exact pure _
      | true =>
          refine runs.bind fun flow => ?_
          cases flow with
          | normal => exact ih
          | returned value => exact pure _

end Curtailed
end Lox
