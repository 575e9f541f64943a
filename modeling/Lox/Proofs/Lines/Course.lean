import Lox.Proofs.Lines.Load
import Lox.Proofs.Lines.Top

set_option autoImplicit false

/-! The course of runs: what is seen of them together, up to the first that fails. The course of a run of
a source that passes is told by the execution of its program. -/

namespace Lox

/-- What is seen of runs, one after another: how the last of them ended, the statements that they have
executed, the kinds and messages of what they have reported, and the session that they leave. -/
structure Course where
  exit : Option Exit
  attempted : List Stmt
  errors : List (Diagnostic.Kind × String)
  session : Session

def Course.before (first later : Course) : Course where
  exit := later.exit
  attempted := first.attempted ++ later.attempted
  errors := first.errors ++ later.errors
  session := later.session

namespace Session

/-- The statements that a run of a source executes; if it fails at run time, then at the last of them. -/
def attempted (s : Session) (bound : Nat) (source : String) : List Stmt :=
  match Stage.load source s with
  | .ok (some program) loaded =>
    Exec.attempted (Exec.context loaded.bindings loaded.config.maxCallDepth bound) program
      loaded.machine
  | _ => []

/-- The course of a single run. There is none if the run exceeds its bound. -/
def course (s : Session) (bound : Nat) (source : String) : Option Course :=
  (s.run bound source).map fun ran =>
    { exit := ran.1
      attempted := s.attempted bound source
      errors := (s.journal bound source).reported.map fun d => (d.kind, d.message)
      session := ran.2 }

/-- The course of runs of some sources one after another, up to the first run that fails. -/
def courses (s : Session) (bound : Nat) : List String → Option Course
  | [] => some ⟨none, [], [], s⟩
  | source :: rest =>
    match s.course bound source with
    | none => none
    | some first =>
      if first.exit.isSome then some first
      else (first.session.courses bound rest).map first.before

variable {s t : Session} {bound : Nat} {source : String}

theorem courses_of_exhausted (rest : List String) (ran : s.course bound source = none) :
    s.courses bound (source :: rest) = none := by
  unfold courses
  rw [ran]

theorem courses_of_failure (rest : List String) {first : Course}
    (ran : s.course bound source = some first) (failed : first.exit.isSome = true) :
    s.courses bound (source :: rest) = some first := by
  unfold courses
  rw [ran]
  exact if_pos failed

theorem courses_of_success (rest : List String) {first : Course}
    (ran : s.course bound source = some first) (succeeded : first.exit = none) :
    s.courses bound (source :: rest) = (first.session.courses bound rest).map first.before := by
  conv_lhs => unfold courses
  rw [ran]
  dsimp only
  rw [succeeded]
  rfl

end Session

namespace Exec

variable {ctx : Context} {ss : List Stmt} {m after : Machine}

/-- A flush that does not fail changes nothing. -/
theorem program_of_ok {flow : Flow} (ran : stmts ctx ss m = .ok flow after)
    (flushes : after.output.flushFails = false) : program ctx ss m = .ok () after := by
  unfold program flush Sink.flushFailure?
  rw [ran]
  dsimp only
  rw [flushes]
  rfl

theorem program_of_error {e : RuntimeError} (failed : stmts ctx ss m = .error (.error e) after)
    (flushes : after.output.flushFails = false) : program ctx ss m = .error (.error e) after := by
  unfold program flush Sink.flushFailure?
  rw [failed]
  dsimp only
  rw [flushes]
  rfl

theorem program_of_exhausted (failed : stmts ctx ss m = .error .exhausted after) :
    program ctx ss m = .error .exhausted after := by
  unfold program
  rw [failed]

end Exec

namespace Session

variable {s loaded : Session} {bound : Nat} {source : String} {program : List Stmt}
  {after : Machine}

/-- A first error, at run time, ends the run. -/
theorem checkpoint_of_error (s : Session) (source : String) (e : RuntimeError) :
    ((s.begun source).report e.diagnostic).checkpoint = some ⟨1, true⟩ := by
  have runtime : ((s.begun source).report e.diagnostic).runtimeFailure = true := e.isRuntime_diagnostic
  have count : ((s.begun source).report e.diagnostic).errors = 1 := rfl
  unfold Reporter.checkpoint Reporter.exit
  rw [count, runtime]
  rfl

section

variable (load : Stage.load source s = .ok (some program) loaded)
include load

variable (bound) in
/-- The journal of a run whose program has been loaded says what its execution reports. -/
theorem journal_of_load : ∃ j : Journal, j.session = loaded ∧ j.reported = [] ∧
    s.journal bound source =
      Outcome.state ((Noted.execute bound program >>= fun _ => Noted.checkpoint) j) := by
  have plain := Noted.plain_load source ⟨s, []⟩
  have leaves := @Noted.load_leaves s source
  unfold Noted.Leaves at leaves
  change Noted.forget _ = Stage.load source s at plain
  rw [load] at plain
  cases noted : Noted.load source ⟨s, []⟩ with
  | error halt j =>
      rw [noted] at plain
      cases plain
  | ok found j =>
      rw [noted] at plain leaves
      cases plain
      refine ⟨j, rfl, leaves.2.1, ?_⟩
      unfold Session.journal Noted.run
      rw [Outcome.bind_of_ok noted]
      rfl

/-- A run whose program fails reports this error and no other. -/
theorem reported_of_error {e : RuntimeError}
    (failed : Exec.program (Exec.context loaded.bindings loaded.config.maxCallDepth bound) program
      loaded.machine = .error (.error e) after) :
    (s.journal bound source).reported = [e.diagnostic] := by
  obtain ⟨j, rfl, silent, same⟩ := journal_of_load bound load
  have noted : Noted.execute bound program j =
      Noted.report [e.diagnostic]
        (j.add { j.session with machine := after } [.executed program]) := by
    unfold Noted.execute
    dsimp only
    rw [failed]
  have last (j : Journal) : Outcome.state (Noted.checkpoint j) = j := by
    unfold Noted.checkpoint
    cases j.session.reporter.checkpoint <;> rfl
  rw [same, Outcome.bind_of_ok (noted.trans rfl), last, Journal.reported_add_reported,
    Journal.reported_add_executed, silent]
  rfl

theorem run_of_load : Stage.run bound source s =
    (Stage.execute bound program >>= fun _ => Stage.checkpoint) loaded := by
  rw [Stage.run_eq, Outcome.bind_of_ok load]
  rfl

variable (bound) in
theorem attempted_of_load : s.attempted bound source =
    Exec.attempted (Exec.context loaded.bindings loaded.config.maxCallDepth bound) program
      loaded.machine := by
  unfold attempted
  rw [load]

theorem course_of_exhausted
    (failed : Exec.stmts (Exec.context loaded.bindings loaded.config.maxCallDepth bound) program
      loaded.machine = .error .exhausted after) : s.course bound source = none := by
  have executed : Stage.execute bound program loaded =
      .error .exhausted { loaded with machine := after } := by
    unfold Stage.execute
    dsimp only
    rw [Exec.program_of_exhausted failed]
  have ran : s.run bound source = none := by
    unfold Session.run
    rw [run_of_load load, Outcome.bind_of_error executed]
  unfold course
  rw [ran]
  rfl

variable (begun : loaded.reporter = s.begun source)
include begun

theorem course_of_ok {flow : Flow}
    (ran : Exec.stmts (Exec.context loaded.bindings loaded.config.maxCallDepth bound) program
      loaded.machine = .ok flow after) (flushes : after.output.flushFails = false) :
    s.course bound source = some
      { exit := none
        attempted := s.attempted bound source
        errors := []
        session := { loaded with machine := after } } := by
  have executed : Stage.execute bound program loaded = .ok () { loaded with machine := after } := by
    unfold Stage.execute
    dsimp only
    rw [Exec.program_of_ok ran flushes]
  have checked : Stage.checkpoint { loaded with machine := after } =
      .ok () { loaded with machine := after } := by
    unfold Stage.checkpoint
    dsimp only
    rw [begun]
    rfl
  have ran : s.run bound source = some (none, { loaded with machine := after }) := by
    unfold Session.run
    rw [run_of_load load, Outcome.bind_of_ok executed, checked]
  have silent := (journal_of_run ran).2.2.1 rfl
  unfold course
  rw [ran, silent]
  rfl

theorem course_of_error {e : RuntimeError}
    (failed : Exec.stmts (Exec.context loaded.bindings loaded.config.maxCallDepth bound) program
      loaded.machine = .error (.error e) after) (flushes : after.output.flushFails = false) :
    s.course bound source = some
      { exit := some ⟨1, true⟩
        attempted := s.attempted bound source
        errors := [(e.diagnostic.kind, e.diagnostic.message)]
        session := { loaded with
          machine := after
          reporter := loaded.reporter.report e.diagnostic } } := by
  have ended := Exec.program_of_error failed flushes
  have executed : Stage.execute bound program loaded =
      .ok () { loaded with
        machine := after
        reporter := loaded.reporter.report e.diagnostic } := by
    unfold Stage.execute
    dsimp only
    rw [ended]
    rfl
  have exit : (loaded.reporter.report e.diagnostic).checkpoint = some ⟨1, true⟩ := by
    rw [begun]
    exact s.checkpoint_of_error source e
  have ran : s.run bound source = some (some ⟨1, true⟩,
      { loaded with
        machine := after
        reporter := loaded.reporter.report e.diagnostic }) := by
    unfold Session.run
    rw [run_of_load load, Outcome.bind_of_ok executed]
    unfold Stage.checkpoint
    dsimp only
    rw [exit]
  unfold course
  rw [ran, reported_of_error load ended]
  rfl

end
end Session
end Lox
