import Lox.Proofs.Limit.Run

set_option autoImplicit false

/-! Sessions whose output has a limit. Until the limit is exceeded they go like sessions without one; then
their output is full and stays as it is, whatever they do. -/

namespace Lox

variable {most : Nat}

namespace Session

variable {s : Session}

theorem state_of_run {bound : Nat} {source : String} {exit : Option Exit} {after : Session}
    (ran : s.run bound source = some (exit, after)) :
    Outcome.state (Stage.run bound source s) = after := by
  rw [run_eq_ofStage] at ran
  cases result : Stage.run bound source s with
  | ok _ last =>
      rw [result] at ran
      cases ran
      rfl
  | error halt last =>
      rw [result] at ran
      cases halt <;> cases ran
      rfl

theorem leave_of_exhausted {entry : Entry} (others : List Entry)
    (ran : s.run entry.bound entry.source = none) :
    s.leave (entry :: others) = Outcome.state (Stage.run entry.bound entry.source s) := by
  unfold leave
  rw [ran]

theorem leave_of_run {entry : Entry} (others : List Entry) {exit : Option Exit} {after : Session}
    (ran : s.run entry.bound entry.source = some (exit, after)) :
    s.leave (entry :: others) = after.leave others := by
  conv_lhs => unfold leave
  rw [ran]

theorem leave_rests (rest : s.machine.AtRest) (history : List Entry) :
    (s.leave history).machine.AtRest := by
  induction history generalizing s with
  | nil => exact rest
  | cons entry others ih =>
      cases ran : s.run entry.bound entry.source with
      | some found =>
          rw [leave_of_run others ran]
          exact ih (atRest_of_run rest ran)
      | none =>
          have ends := Stage.run_rests rest entry.bound entry.source
          unfold Stage.Ends at ends
          rw [leave_of_exhausted others ran]
          cases result : Stage.run entry.bound entry.source s <;> rw [result] at ends <;> exact ends

/-- What is seen of a run does not tell whether there is a limit, as long as everything fits. -/
theorem answer_capped {after : Session} (fits : s.machine.output.Fits most)
    (still : after.machine.output.Fits most) (exit : Option Exit) :
    (s.capped most).answer (after.capped most) exit = s.answer after exit := by
  have here : (s.capped most).machine.output.accepted = s.machine.output.accepted := fits.extract
  have there : (after.capped most).machine.output.accepted = after.machine.output.accepted :=
    still.extract
  unfold answer Sink.textFrom
  rw [here, there]
  rfl

theorem run_capped {bound : Nat} {source : String}
    (ran : Stage.run bound source (s.capped most) =
      Outcome.onState (·.capped most) (Stage.run bound source s)) :
    (s.capped most).run bound source =
      (s.run bound source).map fun ended => (ended.1, ended.2.capped most) := by
  rw [run_eq_ofStage, run_eq_ofStage, ran]
  cases Stage.run bound source s with
  | ok _ after => rfl
  | error halt after => cases halt <;> rfl

/-- As long as everything that a history writes fits, it goes on as if there were no limit. -/
theorem history_fits (history : List Entry) (fits : s.machine.output.Fits most)
    (rest : s.machine.AtRest) (size : (s.leave history).machine.output.accepted.size ≤ most) :
    (s.leave history).machine.output.Fits most ∧
      (s.capped most).answers history = s.answers history ∧
        (s.capped most).leave history = (s.leave history).capped most := by
  induction history generalizing s with
  | nil => exact ⟨fits, rfl, rfl⟩
  | cons entry others ih =>
      have begins := begins_leave_cons s entry others
      have breaks := Stage.run_breaks fits rest [] entry.bound entry.source
      generalize underLimit : Stage.run entry.bound entry.source (s.capped most) = capped at breaks
      generalize free : Stage.run entry.bound entry.source s = result at breaks
      cases breaks with
      | exceeds breach exceeds further left failed =>
          subst free
          have larger := exceeds.size_of_begins (further.trans begins)
          omega
      | fits still =>
          subst free
          have goes := run_capped underLimit
          cases ran : s.run entry.bound entry.source with
          | none =>
              rw [ran] at goes
              rw [leave_of_exhausted others ran, leave_of_exhausted others goes, underLimit,
                Outcome.state_onState, answers_of_exhausted entry.common others ran,
                answers_of_exhausted entry.common others goes]
              exact ⟨still, rfl, rfl⟩
          | some found =>
              obtain ⟨exit, after⟩ := found
              rw [ran] at goes
              rw [state_of_run ran] at still
              rw [leave_of_run others ran] at size
              obtain ⟨fitting, answers, leaves⟩ := ih still (atRest_of_run rest ran) size
              rw [leave_of_run others ran, leave_of_run others goes, answers_of_run entry.common others ran,
                answers_of_run entry.common others goes, answers, answer_capped fits still]
              exact ⟨fitting, rfl, leaves⟩

end Session

/-! ### Full sinks -/

/-- A sink that has accepted as much as it may. -/
structure Sink.Full (most : Nat) (sink : Sink) : Prop where
  limit : sink.limit = some most
  flushFails : sink.flushFails = false
  size : sink.accepted.size = most

theorem Sink.Exceeds.full {sink : Sink} (exceeds : sink.Exceeds most) : (sink.capped most).Full most := by
  refine ⟨rfl, exceeds.flushFails, ?_⟩
  have larger := exceeds.size
  change (sink.accepted.extract 0 most).size = most
  rw [ByteArray.size_extract]
  omega

namespace Sink.Full

variable {sink : Sink}

/-- A full sink is what a sink without a limit is under it. -/
theorem eq_capped (full : sink.Full most) : Sink.capped ⟨sink.accepted, none, false⟩ most = sink := by
  obtain ⟨accepted, limit, flushFails⟩ := sink
  obtain ⟨limited, flushes, size⟩ := full
  cases limited
  cases flushes
  have whole : accepted.size = most := size
  unfold capped
  dsimp only
  rw [← whole, ByteArray.extract_zero_size]

theorem eq_of_begins {other : Sink} (full : sink.Full most) (unfailing : other.Unfailing)
    (begins : sink.Begins (other.capped most)) : other.capped most = sink := by
  obtain ⟨bytes, same⟩ := begins
  have size : (other.capped most).accepted.size ≤ most := by
    change (other.accepted.extract 0 most).size ≤ most
    rw [ByteArray.size_extract]
    omega
  rw [same, ByteArray.size_append, full.size] at size
  have none : bytes = ByteArray.empty := ByteArray.size_eq_zero_iff.mp (by omega)
  rw [none, ByteArray.append_empty] at same
  have limit : (other.capped most).limit = sink.limit := full.limit.symm
  have flushFails : (other.capped most).flushFails = sink.flushFails :=
    unfailing.flushFails.trans full.flushFails.symm
  generalize other.capped most = capped at same limit flushFails ⊢
  cases capped
  cases same
  cases limit
  cases flushFails
  rfl

end Sink.Full

namespace Session

variable {s : Session}

/-- A run of a session whose output is full does not change the output. -/
theorem output_of_full (full : s.machine.output.Full most) (rest : s.machine.AtRest) (bound : Nat)
    (source : String) :
    (Outcome.state (Stage.run bound source s)).machine.output = s.machine.output := by
  let free : Session := { s with
    machine := { s.machine with output := ⟨s.machine.output.accepted, none, false⟩ } }
  have capped : free.capped most = s := by
    change { s with machine := { s.machine with
      output := Sink.capped ⟨s.machine.output.accepted, none, false⟩ most } } = s
    rw [full.eq_capped]
  have fits : free.machine.output.Fits most := ⟨⟨rfl, rfl⟩, Nat.le_of_eq full.size⟩
  have rested : free.machine.AtRest := ⟨rest.current, rest.root, rest.depth⟩
  have breaks := Stage.run_breaks fits rested [] bound source
  have begins := run_begins s bound source
  rw [capped] at breaks
  generalize Stage.run bound source s = result at breaks begins ⊢
  generalize Stage.run bound source free = other at breaks
  cases breaks with
  | fits still =>
      rw [Outcome.state_onState] at begins ⊢
      exact full.eq_of_begins still.toUnfailing begins
  | @exceeds exit after first breach exceeds further left failed =>
      change s.machine.output.Begins after.machine.output at begins
      change after.machine.output = s.machine.output
      rw [left] at begins ⊢
      exact full.eq_of_begins exceeds.toUnfailing begins

theorem leave_of_full (history : List Entry) (full : s.machine.output.Full most)
    (rest : s.machine.AtRest) : (s.leave history).machine.output = s.machine.output := by
  induction history generalizing s with
  | nil => rfl
  | cons entry others ih =>
      have same := output_of_full full rest entry.bound entry.source
      cases ran : s.run entry.bound entry.source with
      | none =>
          rw [leave_of_exhausted others ran]
          exact same
      | some found =>
          obtain ⟨exit, after⟩ := found
          rw [state_of_run ran] at same
          rw [leave_of_run others ran]
          exact (ih (same ▸ full) (atRest_of_run rest ran)).trans same

/-- Whatever a history does, its output under the limit is the beginning of its output without. -/
theorem history_cut (history : List Entry) (fits : s.machine.output.Fits most)
    (rest : s.machine.AtRest) : ((s.capped most).leave history).machine.output.accepted =
      (s.leave history).machine.output.accepted.extract 0 most := by
  induction history generalizing s with
  | nil => rfl
  | cons entry others ih =>
      have begins := begins_leave_cons s entry others
      have breaks := Stage.run_breaks fits rest [] entry.bound entry.source
      generalize underLimit : Stage.run entry.bound entry.source (s.capped most) = capped at breaks
      generalize free : Stage.run entry.bound entry.source s = result at breaks
      cases breaks with
      | fits still =>
          subst free
          have goes := run_capped underLimit
          cases ran : s.run entry.bound entry.source with
          | none =>
              rw [ran] at goes
              rw [leave_of_exhausted others ran, leave_of_exhausted others goes, underLimit,
                Outcome.state_onState]
              rfl
          | some found =>
              obtain ⟨exit, after⟩ := found
              rw [ran] at goes
              rw [state_of_run ran] at still
              rw [leave_of_run others ran, leave_of_run others goes]
              exact ih still (atRest_of_run rest ran)
      | @exceeds exit after first breach exceeds further left failed =>
          subst free
          have goes : (s.capped most).run entry.bound entry.source = some (some exit, after) :=
            (run_eq_ofStage _ _ _).trans (congrArg ofStage underLimit)
          have standing : (s.capped most).machine.AtRest := ⟨rest.current, rest.root, rest.depth⟩
          have output : after.machine.output = first.machine.output.capped most := by
            rw [left]
            rfl
          rw [exceeds.extract_of_begins (further.trans begins), leave_of_run others goes,
            leave_of_full others (output ▸ exceeds.full) (atRest_of_run standing goes), output]
          rfl

end Session

/-- The output of a session with a limit is the beginning of what it would be without, to the limit or to
its end, whatever the runs do. As long as everything fits, all runs end alike in both sessions, with the
same errors, and say the same. The first run for which the limit is not enough ends with status 70, and
leaves the machine as the run without a limit has it at the first moment at which something does not
fit, outside all blocks and calls: nothing that the other run does later takes place. -/
theorem full_output_is_cut_off (config : Config) (errors : Sink) (most : Nat) (history : List Entry) :
    let free := Session.new config .unlimited errors
    let limited := Session.new config ⟨ByteArray.empty, some most, false⟩ errors
    let before := free.leave history
    let total := before.machine.output.accepted
    (limited.leave history).machine.output.accepted = total.extract 0 (min most total.size) ∧
    (total.size ≤ most →
      limited.answers history = free.answers history ∧
      ∀ bound source,
        let last := (Outcome.state (Stage.run bound source before)).machine
        let record := before.record [] bound source
        record.now.machine = last ∧
        (most < last.output.accepted.size → ∃ exit after first,
          (limited.leave history).run bound source = some (some exit, after) ∧ exit.status = 70 ∧
            record.breach? most = some first ∧ after.machine = (first.machine.capped most).reset)) := by
  intro free limited before total
  have fits : free.machine.output.Fits most := ⟨⟨rfl, rfl⟩, Nat.zero_le most⟩
  have rest : free.machine.AtRest := Machine.AtRest.new .unlimited
  have empty : ByteArray.empty = ByteArray.empty.extract 0 most := fits.extract.symm
  have capped : limited = free.capped most :=
    congrArg (fun bytes => Session.new config ⟨bytes, some most, false⟩ errors) empty
  rw [capped]
  refine ⟨(Session.history_cut history fits rest).trans (Sink.extract_min_size total most),
    fun size => ?_⟩
  obtain ⟨still, answers, leaves⟩ := Session.history_fits history fits rest size
  refine ⟨answers, fun bound source => ⟨(Stage.record_spans before [] bound source).2, fun larger => ?_⟩⟩
  have breaks := Stage.run_breaks still (Session.leave_rests rest history) [] bound source
  rw [leaves, Session.run_eq_ofStage]
  change most < (Outcome.state (Stage.run bound source before)).machine.output.accepted.size at larger
  generalize Stage.run bound source before = result at breaks larger
  generalize Stage.run bound source (before.capped most) = capped at breaks ⊢
  cases breaks with
  | fits fitting => exact absurd fitting.size (Nat.not_le_of_lt larger)
  | @exceeds exit after first breach exceeds further left failed =>
      refine ⟨exit, after, first, rfl, ?_, breach, left⟩
      unfold Exit.status
      rw [failed]
      rfl

/-- An output of five bytes ends within the text of a value that is printed in a call. -/
theorem full_output_is_cut_off_in_call :
    let history : List Entry := [⟨true, 8, "print \"abc\";"⟩]
    let source := "var x = 1; fun f() { x = 2; print 12345; x = 3; } f(); x = 4;"
    let before := (Session.new {} .unlimited .unlimited).leave history
    let limited := Session.new {} ⟨ByteArray.empty, some 5, false⟩ .unlimited
    let last := (Outcome.state (Stage.run 8 source before)).machine
    before.machine.output.accepted.size ≤ 5 ∧ 5 < last.output.accepted.size ∧
      ∃ exit after first, (limited.leave history).run 8 source = some (some exit, after) ∧
        exit.status = 70 ∧ (before.record [] 8 source).breach? 5 = some first ∧
          after.machine = (first.machine.capped 5).reset := by
  intro history source before limited last
  have fits : before.machine.output.accepted.size ≤ 5 := by decide +kernel
  have larger : 5 < last.output.accepted.size := by decide +kernel
  have cut := full_output_is_cut_off {} .unlimited 5 history
  -- The sessions stay names here, so that nothing is run again to compare them.
  clear_value history source
  exact ⟨fits, larger, ((cut.2 fits).2 8 source).2 larger⟩

end Lox
