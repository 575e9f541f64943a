import Lox.Proofs.Limit.Agreement
import Lox.Proofs.Session.Exit
import Lox.Proofs.Trace.Restore

set_option autoImplicit false

/-! One run with a limit on the output, beside the run without. If all that the other one writes fits, both
end alike; if not, the limited run ends with a failure of its output, and the session is left as it was
at the first moment at which something did not fit. -/

namespace Lox

variable {α β : Type} {most : Nat}

/-! ## Loading

Only listings are written; the first of them that does not fit ends the run. -/

/-- After a failure of the machine, the exit of a run is one of execution. -/
theorem Reporter.runtime_reportAll (reporter : Reporter) (e : RuntimeError) :
    (reporter.reportAll [e.diagnostic]).exit.runtime = true := by
  change (reporter.runtimeFailure || e.diagnostic.isRuntime) = true
  rw [e.isRuntime_diagnostic, Bool.or_true]

namespace Session

/-- The session as it would be if its output had a limit. -/
def capped (s : Session) (most : Nat) : Session :=
  { s with machine := s.machine.capped most }

/-- Nothing has happened to the machine but that something has been written. -/
def Appended (s after : Session) : Prop :=
  ∃ bytes, after.machine = { s.machine with
    output := { s.machine.output with accepted := s.machine.output.accepted ++ bytes } }

variable {s middle after : Session}

theorem appended_of_eq (same : after.machine = s.machine) : s.Appended after := by
  refine ⟨ByteArray.empty, ?_⟩
  rw [ByteArray.append_empty]
  exact same

theorem Appended.trans (one : s.Appended middle) (two : middle.Appended after) : s.Appended after := by
  obtain ⟨bytes, first⟩ := one
  obtain ⟨more, second⟩ := two
  refine ⟨bytes ++ more, ?_⟩
  rw [second, first, ← ByteArray.append_assoc]

/-- Beyond the limit, what is written makes no difference under it. -/
theorem Appended.exceeds (appended : s.Appended after) (exceeds : s.machine.output.Exceeds most) :
    after.machine.output.Exceeds most ∧ after.machine.capped most = s.machine.capped most := by
  obtain ⟨bytes, same⟩ := appended
  have begins : s.machine.output.Begins after.machine.output := ⟨bytes, by rw [same]⟩
  have first := exceeds.extract_of_begins begins
  refine ⟨⟨?_, exceeds.size_of_begins begins⟩, ?_⟩
  · rw [same]
    exact ⟨exceeds.limit, exceeds.flushFails⟩
  · unfold Machine.capped Sink.capped
    rw [first, same]

end Session

namespace Stage

/-- A result without a limit and one under it: they are the same but for the limit, or something did not
fit and the second one is that the run has ended with a failure of its output. -/
inductive Curbs (most : Nat) : EStateM.Result Halt Session α → EStateM.Result Halt Session α → Prop
  | fits {result : EStateM.Result Halt Session α}
      (fits : (Outcome.state result).machine.output.Fits most) :
      Curbs most result (Outcome.onState (·.capped most) result)
  | exceeds {result : EStateM.Result Halt Session α} {exit : Exit} {after : Session}
      (exceeds : (Outcome.state result).machine.output.Exceeds most)
      (left : after.machine = (Outcome.state result).machine.capped most)
      (failed : exit.runtime = true) : Curbs most result (.error (.exit exit) after)

/-- A stage that only writes to the machine, and that a limit curbs. -/
structure Curbed (most : Nat) (stage : Stage α) : Prop where
  appends : ∀ s : Session, s.Appended (Outcome.state (stage s))
  curbs : ∀ s : Session, s.machine.output.Fits most → Curbs most (stage s) (stage (s.capped most))

namespace Curbed

variable {stage : Stage α}

/-- A stage that does not write. -/
theorem of_heedless (heedless : Heedless id (·.capped most) stage)
    (still : ∀ s, (Outcome.state (stage s)).machine = s.machine) : Curbed most stage := by
  refine ⟨fun s => Session.appended_of_eq (still s), fun s fits => ?_⟩
  have same : stage (s.capped most) = Outcome.onState (·.capped most) (stage s) := heedless.same s
  rw [same]
  refine .fits ?_
  rw [still]
  exact fits

theorem pure (a : α) : Curbed most (return a) :=
  of_heedless (.pure a) fun _ => rfl

theorem bind {second : α → Stage β} (first : Curbed most stage)
    (later : ∀ a, Curbed most (second a)) : Curbed most (stage >>= second) := by
  constructor
  · intro s
    have appends := first.appends s
    cases result : stage s with
    | ok a middle =>
        rw [result] at appends
        rw [Outcome.bind_of_ok result]
        exact appends.trans ((later a).appends middle)
    | error halt last =>
        rw [result] at appends
        rw [Outcome.bind_of_error result]
        exact appends
  · intro s fits
    have whole := first.curbs s fits
    have more (a : α) (middle : Session) := (later a).appends middle
    change Curbs most (EStateM.bind stage second s) (EStateM.bind stage second (s.capped most))
    unfold EStateM.bind
    generalize stage s = here at whole ⊢
    generalize stage (s.capped most) = there at whole ⊢
    cases whole with
    | fits still =>
        cases here with
        | ok a middle => exact (later a).curbs middle still
        | error halt last => exact .fits still
    | exceeds exceeds left failed =>
        cases here with
        | ok a middle =>
            have beyond := (more a middle).exceeds exceeds
            exact .exceeds beyond.1 (left.trans beyond.2.symm) failed
        | error halt last => exact .exceeds exceeds left failed

theorem get_bind {second : Session → Stage β} (blind : ∀ s : Session, second (s.capped most) = second s)
    (later : ∀ s, Curbed most (second s)) : Curbed most (get >>= second) := by
  refine ⟨fun s => (later s).appends s, fun s fits => ?_⟩
  change Curbs most (second s s) (second (s.capped most) (s.capped most))
  rw [blind]
  exact (later s).curbs s fits

end Curbed

theorem checkpoint_curbed : Curbed most checkpoint := by
  refine .of_heedless heedless_checkpoint fun s => ?_
  unfold checkpoint
  cases s.reporter.checkpoint <;> rfl

/-- What is left to do when a listing has been written, or has not been written to its end. -/
def delivered : Option SinkFailure → Stage Unit
  | none => return ()
  | some failure => do
    report [(RuntimeError.outputFailed failure).diagnostic]
    halt

theorem dump_eq (text : String) (s : Session) :
    dump text s = delivered (s.machine.output.deliveryFailure? text)
      { s with machine := { s.machine with output := s.machine.output.accept text } } := by
  unfold dump delivered
  cases s.machine.output.deliveryFailure? text <;> rfl

theorem machine_delivered (failure : Option SinkFailure) (s : Session) :
    (Outcome.state (delivered failure s)).machine = s.machine := by
  cases failure <;> rfl

theorem dump_curbed (text : String) : Curbed most (dump text) := by
  constructor
  · intro s
    obtain ⟨bytes, same⟩ := s.machine.output.accept_eq_append text
    refine ⟨bytes, ?_⟩
    rw [dump_eq, machine_delivered, same]
  · intro s fits
    let written : Session := { s with
      machine := { s.machine with output := s.machine.output.accept text } }
    have capped : { s.capped most with machine := { (s.capped most).machine with
        output := (s.capped most).machine.output.accept text } } = written.capped most := by
      change { s with machine := { s.machine with
        output := (s.machine.output.capped most).accept text } } = written.capped most
      rw [fits.accept_capped]
      rfl
    rw [dump_eq, dump_eq, capped, fits.deliveryFailure?]
    change Curbs most (.ok () written)
      (delivered ((s.machine.output.capped most).deliveryFailure? text) (written.capped most))
    unfold Sink.deliveryFailure?
    rcases Sink.fits_or_exceeds (fits.accept text) most with still | exceeds
    · rw [fits.failure?_of_fits still, Sink.flushFailure?_capped, fits.flushFailure?]
      exact .fits still
    · rw [fits.failure?_of_exceeds exceeds]
      exact .exceeds exceeds rfl (Reporter.runtime_reportAll _ _)

theorem dumpIf_curbed (asked : Bool) (text : String) : Curbed most (dumpIf asked text) := by
  cases asked with
  | false => exact .pure ()
  | true => exact dump_curbed text

theorem scan_curbed (source : String) : Curbed most (scan source) :=
  .of_heedless (heedless_scan source) fun _ => rfl

theorem parse_curbed (tokens : List Token) : Curbed most (parse tokens) := by
  refine .of_heedless (heedless_parse tokens) fun s => ?_
  unfold parse
  change (Outcome.state ((if (Grammar.parse tokens s.nextNode).fatal.isSome then halt else _ : Stage _)
    _)).machine = s.machine
  split <;> rfl

theorem resolve_curbed (first : NodeId) (program : List Stmt) :
    Curbed most (resolve first program) := by
  refine .of_heedless (heedless_resolve first program) fun s => ?_
  have still : Ends (resolve first program) s (·.machine = s.machine)
      fun _ after => after.machine = s.machine := by
    refine Ends.get_bind ?_
    cases Lox.resolve s.bindings program with
    | mk refusal bindings => cases refusal <;> rfl
  unfold Ends at still
  cases result : resolve first program s <;> rw [result] at still <;> exact still

theorem load_curbed (source : String) : Curbed most (load source) := by
  refine .get_bind (fun _ => rfl) fun s => ?_
  refine .bind (.bind (scan_curbed source) fun _ => ?_) fun tokens => ?_
  · exact (dumpIf_curbed _ _).bind fun _ => checkpoint_curbed.bind fun _ => .pure _
  refine .get_bind (fun _ => rfl) fun first => ?_
  refine .bind (.bind (parse_curbed tokens) fun _ => ?_) fun program => ?_
  · exact (dumpIf_curbed _ _).bind fun _ => checkpoint_curbed.bind fun _ => .pure _
  split
  · exact .pure none
  · refine (resolve_curbed _ program).bind fun _ => checkpoint_curbed.bind fun _ => ?_
    split
    · exact .pure none
    · exact .pure _

end Stage

/-! ## A whole run -/

namespace Record

variable {r : Record} {m last : Machine} {names : List String}

/-- The first moment of a record at which more has been written than so many bytes. -/
def breach? (r : Record) (most : Nat) : Option Moment :=
  r.moments.reverse.find? fun moment => most < moment.machine.output.accepted.size

theorem breach?_of_split {later earlier : List Moment} {first : Moment}
    (same : r.moments = later ++ first :: earlier)
    (fit : ∀ moment ∈ earlier, moment.machine.output.accepted.size ≤ most)
    (exceeds : first.machine.output.Exceeds most) : r.breach? most = some first := by
  unfold breach?
  refine List.find?_eq_some_iff_append.mpr
    ⟨decide_eq_true exceeds.size, earlier.reverse, later.reverse, ?_, fun moment member => ?_⟩
  · rw [same]
    simp
  · have size := fit moment (List.mem_reverse.mp member)
    simp only [Bool.not_eq_true', decide_eq_false_iff_not]
    omega

/-- More has been written from the start on. -/
theorem breach?_of_start (grows : (start m names).Grows r) (exceeds : m.output.Exceeds most) :
    r.breach? most = some ⟨m, names⟩ := by
  obtain ⟨⟨later, same, -⟩, -⟩ := grows
  exact breach?_of_split same nofun exceeds

theorem breach?_of_overruns (fits : m.output.Fits most)
    (overruns : (start m names).Overruns most r last) : ∃ first, r.breach? most = some first ∧
      first.machine.output.Exceeds most ∧ first.machine.output.Begins r.now.machine.output ∧
        last.reset = (first.machine.capped most).reset := by
  obtain ⟨later, first, earlier, same, fit, exceeds, begins, left⟩ := overruns
  refine ⟨first, breach?_of_split same (fun moment member => ?_) exceeds, exceeds, begins, left⟩
  rcases List.mem_append.mp member with late | early
  · exact (fit moment late).size
  · rw [List.mem_singleton.mp early]
    exact fits.size

end Record

namespace Stage

/-- How one run without a limit and one with a limit end. -/
inductive Breaks (most : Nat) (record : Record) :
    EStateM.Result Halt Session Unit → EStateM.Result Halt Session Unit → Prop
  | fits {result : EStateM.Result Halt Session Unit}
      (fits : (Outcome.state result).machine.output.Fits most) :
      Breaks most record result (Outcome.onState (·.capped most) result)
  | exceeds {result : EStateM.Result Halt Session Unit} {exit : Exit} {after : Session} {first : Moment}
      (breach : record.breach? most = some first) (exceeds : first.machine.output.Exceeds most)
      (begins : first.machine.output.Begins (Outcome.state result).machine.output)
      (left : after.machine = (first.machine.capped most).reset) (failed : exit.runtime = true) :
      Breaks most record result (.error (.exit exit) after)

theorem conclude_capped (outcome : EStateM.Result Stop Machine Unit) (s : Session) :
    conclude (Outcome.onState (·.capped most) outcome) (s.capped most) =
      Outcome.onState (·.capped most) (conclude outcome s) :=
  conclude_amend id (·.capped most) outcome s

theorem conclude_failed (e : RuntimeError) (last : Machine) (s : Session) :
    ∃ after, conclude (.error (.error e) last) s =
        .error (.exit (s.reporter.reportAll [e.diagnostic]).exit) after ∧ after.machine = last :=
  ⟨{ s with machine := last, reporter := s.reporter.reportAll [e.diagnostic] }, rfl, rfl⟩

/-- A program that is executed under a limit. -/
theorem conclude_breaks {loaded : Session} (fits : loaded.machine.output.Fits most)
    (rest : loaded.machine.AtRest) (bindings : Bindings) (maxDepth bound : Nat) (program : List Stmt)
    (names : List String) :
    let ctx := Exec.context bindings maxDepth bound
    Breaks most (Outcome.state (Traced.program ctx (Traced.calls bindings maxDepth bound) program
        (.start loaded.machine names)))
      (conclude (Exec.program ctx program loaded.machine) loaded)
      (conclude (Exec.program ctx program (loaded.machine.capped most)) (loaded.capped most)) := by
  intro ctx
  have same := Traced.forget_program (Traced.follows_calls bindings maxDepth bound) program
    (.start loaded.machine names)
  have curtails := (Traced.program_curtailed bindings maxDepth bound program).curtails
    (.start loaded.machine names) fits
  have stays := Exec.program_stays bindings maxDepth bound (loaded.machine.capped most) program
  change Curtails most _ _ (Exec.program ctx program (loaded.machine.capped most)) at curtails
  change Traced.forget _ = Exec.program ctx program loaded.machine at same
  change Machine.Stays _ (Outcome.state (Exec.program ctx program (loaded.machine.capped most))) at stays
  rw [← same]
  generalize Traced.program ctx (Traced.calls bindings maxDepth bound) program
    (.start loaded.machine names) = traced at curtails ⊢
  generalize Exec.program ctx program (loaded.machine.capped most) = capped at curtails stays ⊢
  cases curtails with
  | fits since =>
      rw [conclude_capped]
      refine .fits ?_
      rw [machine_conclude, Traced.state_forget]
      exact since.now fits
  | @overruns last overruns =>
      obtain ⟨first, breach, exceeds, begins, left⟩ := Record.breach?_of_overruns fits overruns
      have capped : (loaded.machine.capped most).AtRest := ⟨rest.current, rest.root, rest.depth⟩
      have rested : last.AtRest := capped.stays stays
      obtain ⟨after, ended, same⟩ := conclude_failed (.outputFailed .full) last (loaded.capped most)
      rw [ended]
      refine .exceeds breach exceeds ?_ ?_ (Reporter.runtime_reportAll _ _)
      · rw [machine_conclude, Traced.state_forget]
        exact begins
      · rw [same, ← left, rested.reset]

/-- The record of a run begins where its source has been loaded and ends where the run ends. -/
theorem record_spans (s : Session) (names : List String) (bound : Nat) (source : String) :
    (Record.start (Outcome.state (load source s)).machine names).Grows (s.record names bound source) ∧
      (s.record names bound source).now.machine = (Outcome.state (run bound source s)).machine := by
  rw [run_eq]
  unfold Session.record
  cases result : load source s with
  | error halt loaded =>
      rw [Outcome.bind_of_error result]
      exact ⟨.refl _, rfl⟩
  | ok found loaded =>
      rw [Outcome.bind_of_ok result]
      cases found with
      | none => exact ⟨.refl _, rfl⟩
      | some program =>
          have follows := Traced.follows_calls loaded.bindings loaded.config.maxCallDepth bound
          have same := Traced.forget_program follows program (.start loaded.machine names)
          constructor
          · have curtailed : Curtailed 0 (Traced.program _ _ program) _ :=
              Traced.program_curtailed loaded.bindings loaded.config.maxCallDepth bound program
            exact curtailed.grows _
          · rw [finish_execute, machine_conclude, ← Traced.state_forget, same]
            rfl

/-- A listing that does not fit ends the run before its program is executed. -/
theorem breaks_of_load {s after : Session} {source : String} {exit : Exit} (rest : s.machine.AtRest)
    (exceeds : (Outcome.state (load source s)).machine.output.Exceeds most)
    (left : after.machine = (Outcome.state (load source s)).machine.capped most)
    (failed : exit.runtime = true) (names : List String) (bound : Nat) :
    Breaks most (s.record names bound source) (run bound source s) (.error (.exit exit) after) := by
  obtain ⟨grows, last⟩ := record_spans s names bound source
  have curbed : Curbed most (load source) := load_curbed source
  obtain ⟨bytes, same⟩ := curbed.appends s
  refine .exceeds (Record.breach?_of_start grows exceeds) exceeds (last ▸ grows.begins) ?_ failed
  have rested : ((Outcome.state (load source s)).machine.capped most).AtRest := by
    rw [same]
    exact ⟨rest.current, rest.root, rest.depth⟩
  rw [left, rested.reset]

/-- A run under a limit. -/
theorem run_breaks {s : Session} (fits : s.machine.output.Fits most) (rest : s.machine.AtRest)
    (names : List String) (bound : Nat) (source : String) :
    Breaks most (s.record names bound source) (run bound source s)
      (run bound source (s.capped most)) := by
  have loads := (load_curbed source).curbs s fits
  have wrote := load_writes (s := s) source
  unfold Writes Ends at wrote
  generalize underLimit : load source (s.capped most) = capped at loads
  generalize free : load source s = result at loads wrote
  cases loads with
  | exceeds exceeds left failed =>
      have ended := Outcome.bind_of_error (f := finish (execute bound)) underLimit
      rw [← run_eq] at ended
      rw [ended]
      subst free
      exact breaks_of_load rest exceeds left failed names bound
  | fits still =>
      unfold Session.record
      rw [run_eq, free]
      cases result with
      | error halt loaded =>
          rw [Outcome.bind_of_error free, Outcome.bind_of_error underLimit]
          exact .fits still
      | ok found loaded =>
          rw [Outcome.bind_of_ok free, Outcome.bind_of_ok underLimit]
          cases found with
          | none => exact .fits still
          | some program =>
              have rested : loaded.machine.AtRest := Session.Wrote.atRest wrote rest
              rw [finish_execute, finish_execute]
              exact conclude_breaks still rested loaded.bindings loaded.config.maxCallDepth bound
                program names

end Stage

end Lox
