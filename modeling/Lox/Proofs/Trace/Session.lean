import Lox.Proofs.Trace.Declared

set_option autoImplicit false

/-! The names that a session has declared outside all blocks, over all of its runs. -/

namespace Lox

variable {known more : Site → Prop}

namespace FunctionObject

theorem Known.mono {f : FunctionObject} (isKnown : f.Known known)
    (wider : ∀ site, known site → more site) : f.Known more := by
  obtain ⟨path, role, sites, regular⟩ := isKnown
  exact ⟨path, role, fun site member => wider site (sites site member), regular⟩

theorem known_default : (default : FunctionObject).Known known :=
  ⟨[], .function, nofun, nofun, trivial⟩

end FunctionObject

namespace Moment.Agrees

variable {m : Machine} {names : List String}

theorem mono (agrees : Moment.Agrees known ⟨m, names⟩) (wider : ∀ site, known site → more site) :
    Moment.Agrees more ⟨m, names⟩ :=
  ⟨⟨agrees.secluded.room, agrees.secluded.empty,
    fun id => (agrees.secluded.functions id).mono wider⟩, agrees.keys⟩

theorem new (output : Sink) : Moment.Agrees known ⟨Machine.new output, []⟩ :=
  ⟨⟨Nat.zero_lt_one, rfl, fun _ => FunctionObject.known_default⟩, fun _ => Iff.rfl⟩

/-- What has been written makes no difference. -/
theorem wrote {s after : Session} (agrees : Moment.Agrees known ⟨s.machine, names⟩)
    (wrote : s.Wrote after) : Moment.Agrees known ⟨after.machine, names⟩ := by
  obtain ⟨output, same⟩ := wrote
  rw [same]
  exact ⟨agrees.secluded.of_eq rfl rfl rfl, agrees.keys⟩

end Moment.Agrees

namespace Traced

variable {ctx : Context} {call : Calls} {r : Record} {names : List String}

theorem state_flush (r : Record) : Outcome.state (flush r) = r.become r.now.machine := by
  unfold flush step Exec.flush
  cases r.now.machine.output.flushFailure? <;> rfl

theorem state_program (ctx : Context) (call : Calls) (ss : List Stmt) (r : Record) :
    let last := Outcome.state (sequence ctx call ss r)
    Outcome.state (program ctx call ss r) = last ∨
      Outcome.state (program ctx call ss r) = last.become last.now.machine := by
  unfold program
  cases sequence ctx call ss r with
  | ok flow last => exact .inr (state_flush last)
  | error stop last =>
      cases stop with
      | exhausted => exact .inl rfl
      | error e =>
          have flushed := state_flush last
          refine .inr ?_
          dsimp only
          cases result : flush last <;> rw [result] at flushed <;> exact flushed

/-- A whole program, which ends with a flush. -/
theorem program_advances {ss : List Stmt} (advances : Advances known names r (sequence ctx call ss)) :
    Advances known names r (program ctx call ss) := by
  obtain ⟨now, since, ordered⟩ := advances
  have becomes : (Outcome.state (sequence ctx call ss r)).Since
      (Moment.Amid known names r.now.declared)
      ((Outcome.state (sequence ctx call ss r)).become
        (Outcome.state (sequence ctx call ss r)).now.machine) := Record.Since.next now
  rcases state_program ctx call ss r with same | same
  · constructor <;> rw [same] <;> assumption
  · constructor
    · rw [same]
      exact now
    · rw [same]
      exact since.trans becomes
    · rw [same]
      exact fun before => (ordered before).next (List.suffix_refl _)

end Traced

namespace Session

/-- The names that the program of a source declares outside all blocks, if it is executed. -/
def written (s : Session) (source : String) : List String :=
  match Stage.load source s with
  | .ok (some program) _ => program.flatMap Stmt.names
  | _ => []

/-- The record of a run in a session that has declared some names. -/
def record (s : Session) (names : List String) (bound : Nat) (source : String) : Record :=
  match Stage.load source s with
  | .ok (some program) loaded =>
    let context := Exec.context loaded.bindings loaded.config.maxCallDepth bound
    let calls := Traced.calls loaded.bindings loaded.config.maxCallDepth bound
    Outcome.state (Traced.program context calls program (.start loaded.machine names))
  | result => .start (Outcome.state result).machine names

/-- Sessions that are reached by runs, with the names that these have declared outside all blocks. -/
inductive Declared : List String → Session → Prop
  | new (config : Config) (output errors : Sink) : Declared [] (Session.new config output errors)
  | run {names : List String} {s after : Session} {exit : Option Exit} (bound : Nat)
      (source : String) (before : Declared names s) (ran : s.run bound source = some (exit, after)) :
      Declared (s.record names bound source).now.declared after
  | resetScopes {names : List String} {s : Session} (before : Declared names s) :
      Declared names s.resetScopes

variable {sites : List Site} {s after : Session} {names : List String}

/-- The record of a run ends where the run ends. -/
theorem machine_of_run {bound : Nat} {source : String} {exit : Option Exit}
    (ran : s.run bound source = some (exit, after)) :
    after.machine = (s.record names bound source).now.machine := by
  refine of_run (·.machine = (s.record names bound source).now.machine) ?_ ran
  unfold Stage.Ends record
  rw [Stage.run_eq]
  cases result : Stage.load source s with
  | error halt loaded =>
      rw [Outcome.bind_of_error result]
      rfl
  | ok found loaded =>
      rw [Outcome.bind_of_ok result]
      cases found with
      | none => rfl
      | some program =>
          have follows := Traced.follows_calls loaded.bindings loaded.config.maxCallDepth bound
          have same := congrArg Outcome.state
            (Traced.forget_program follows program (.start loaded.machine names))
          rw [Traced.state_forget] at same
          apply ((Stage.execute_ends_on bound program).imp (fun _ here => here.trans same.symm)
            fun _ _ here => here.trans same.symm).bind
          intro _ executed here
          unfold Stage.Ends Stage.checkpoint
          cases executed.reporter.checkpoint <;> exact here

/-- At every moment of a run, its first few declarations have been executed. -/
theorem record_amid (sound : s.Sound sites)
    (agrees : Moment.Agrees (· ∈ sites) ⟨s.machine, names⟩) (bound : Nat) (source : String) :
    (∀ moment ∈ (s.record names bound source).moments,
        moment.Amid (· ∈ sites ++ s.executed source) (s.written source) names) ∧
      (s.record names bound source).Ordered := by
  have loads := Stage.load_ends sound source
  have writes := Stage.load_writes (s := s) source
  have idle (loaded : Session) (wrote : s.Wrote loaded) :
      (∀ moment ∈ (Record.start loaded.machine names).moments,
        moment.Amid (· ∈ sites ++ []) [] names) ∧ (Record.start loaded.machine names).Ordered := by
    refine ⟨fun moment member => ?_, List.pairwise_singleton _ _⟩
    rw [List.mem_singleton.mp member, List.append_nil]
    exact (agrees.wrote wrote).amid []
  unfold Stage.Writes Stage.Ends at writes
  unfold Stage.Ends at loads
  unfold record executed written
  cases result : Stage.load source s with
  | error halt loaded =>
      rw [result] at writes
      exact idle loaded writes
  | ok found loaded =>
      rw [result] at loads writes
      cases found with
      | none => exact idle loaded writes
      | some program =>
          obtain ⟨ready, regular⟩ := loads.2 program rfl
          have start := (agrees.wrote writes).mono fun site member =>
            List.mem_append_left (Sites.program program) member
          have follows := Traced.follows_calls loaded.bindings loaded.config.maxCallDepth bound
          have advances := Traced.program_advances <|
            Traced.sequence_advances ready.vouched.bound follows
              (Traced.discreet_calls ready.vouched.bound _ bound) program
              (.start loaded.machine names)
              (fun _ member => List.mem_append_right sites member) regular start
          refine ⟨advances.since.all fun moment member => ?_,
            advances.ordered (List.pairwise_singleton _ _)⟩
          rw [List.mem_singleton.mp member]
          exact start.amid _

/-- The sites of the code that has run, and the global variables that are there. -/
theorem Declared.agrees (history : s.Declared names) :
    ∃ sites, s.Sound sites ∧ Moment.Agrees (· ∈ sites) ⟨s.machine, names⟩ := by
  induction history with
  | new config output errors => exact ⟨[], sound_new config output errors, .new output⟩
  | run bound source _ ran before =>
      obtain ⟨sites, sound, agrees⟩ := before
      have last := ((record_amid sound agrees bound source).1 _ List.mem_cons_self).agrees
      refine ⟨_, sound.run ran, ?_⟩
      rw [machine_of_run ran]
      exact last
  | resetScopes _ before =>
      obtain ⟨sites, sound, agrees⟩ := before
      exact ⟨sites, sound.resetScopes, agrees.secluded.of_eq rfl rfl rfl, agrees.keys⟩

end Session

/-- At every moment of every run of a session, the names of the global variables are those of the
declarations outside all blocks that have been executed, in earlier runs and in this one, and the root
frame is empty. The declarations of this run stand in its program outside all blocks, are executed in
their order, and are never taken back; no assignment makes a global variable. -/
theorem globals_are_declared {names : List String} {s : Session} (history : s.Declared names)
    (bound : Nat) (source : String) :
    let record := s.record names bound source
    (∀ moment ∈ record.moments,
      (∀ name, name ∈ moment.machine.environment.globals.keys ↔ name ∈ moment.declared) ∧
      (moment.machine.environment.frame moment.machine.environment.root.frame).keys = [] ∧
      ∃ done, done <+: s.written source ∧ moment.declared = done.reverse ++ names) ∧
    record.moments.Pairwise (fun later earlier => earlier.declared <:+ later.declared) ∧
    (∀ program loaded, Stage.load source s = .ok (some program) loaded →
      let ctx := Exec.context loaded.bindings loaded.config.maxCallDepth bound
      let calls := Traced.calls loaded.bindings loaded.config.maxCallDepth bound
      let traced := Traced.program ctx calls program (.start loaded.machine names)
      record = Outcome.state traced ∧
        Traced.forget traced = Exec.program ctx program loaded.machine) ∧
    (∀ exit after, s.run bound source = some (exit, after) →
      after.machine = record.now.machine) ∧
    ∀ (ctx : Context) id name value (m : Machine),
      (Outcome.state (Exec.store ctx id name value m)).environment.globals.keys =
        m.environment.globals.keys := by
  intro record
  obtain ⟨sites, sound, agrees⟩ := history.agrees
  obtain ⟨amid, ordered⟩ := Session.record_amid sound agrees bound source
  refine ⟨fun moment member => ?_, ordered, fun program loaded result => ?_,
    fun exit after ran => Session.machine_of_run ran, fun ctx id name value m => ?_⟩
  · have here := amid moment member
    exact ⟨here.agrees.keys, congrArg Table.keys here.agrees.secluded.empty, here.declared⟩
  · intro ctx calls traced
    refine ⟨?_, Traced.forget_program (Traced.follows_calls _ _ bound) program _⟩
    change Session.record s names bound source = _
    unfold Session.record
    rw [result]
  · exact Exec.keys_store ctx id name value m

/-- A class counts from its declaration on, though its members fail; what is declared in a block, and
after the failure, does not count. -/
theorem globals_are_declared_of_failing_class :
    let source := "var a; { var b; fun c() {} } class D { x = missing; } var e;"
    let record := (Session.new {} .unlimited .unlimited).record [] 8 source
    record.now.declared = ["D", "a"] ∧
      ∀ moment ∈ record.moments, ∀ name,
        name ∈ moment.machine.environment.globals.keys ↔ name ∈ moment.declared :=
  ⟨by decide +kernel, fun moment member =>
    ((globals_are_declared (.new {} .unlimited .unlimited) 8 _).1 moment member).1⟩

end Lox
