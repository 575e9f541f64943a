import Lox.Proofs.Session.Presence
import Lox.Proofs.Twin.Evaluate
import Lox.Proofs.Twin.Settle
import Lox.Proofs.Twin.Undisturbed

set_option autoImplicit false

/-! Histories of sessions. Runs that are rejected before execution make no difference to the others: what
is seen of the other runs is what would be seen of them in a session without the rejected ones. -/

namespace Lox

/-! ### One run

In two sessions that treat any source alike a run ends alike, and they treat any source alike
afterwards. -/

namespace Stage

variable {w : Correspondence} {start start' s s' : Session} {sites sites' : List Site}

/-- A source is loaded alike: there is a program to execute in both sessions or in none. -/
theorem load_twins (twin : Session.Twin w s s' s s') (sound : s.Sound sites)
    (sound' : s'.Sound sites') (noTokens : s.config.dumpTokens = false)
    (noProgram : s.config.dumpAst = false) (source : String) :
    Twins (Session.Alike s s') (fun found found' t t' => ∃ more, Session.Abreast more s s' t t' ∧
      Option.Rel (Stmts.Like more.likeness) found found') (load source) (load source) s s' := by
  unfold load
  refine .get_bind ?_
  rw [← twin.config]
  refine ((loadTokens_twins twin noTokens source).both (loadTokens_ends s.config source)
    (loadTokens_ends s.config source)).bind fun ts us t t' read => ?_
  obtain ⟨⟨more, scanned, tokens, ends⟩, ⟨shown, base, text, rfl⟩, shown', base', text', rfl⟩ := read
  refine .get_bind ((((loadProgram_twins scanned noProgram tokens ends).both
    (loadProgram_ends (sound.shown shown) s.config (Token.ofText_spelled base text))
    (loadProgram_ends (sound'.shown shown') s.config (Token.ofText_spelled base' text'))).bind
      fun program program' r r' read => ?_))
  obtain ⟨⟨parsed, alike, counted⟩, ⟨ready, fit⟩, ready', fit'⟩ := read
  split
  · exact .pure ⟨_, parsed, .none⟩
  · refine (resolve_twins parsed ready.below ready'.below scanned.nodes alike counted fit
      fit').bind fun _ _ q q' resolved => ?_
    obtain ⟨last, resolved, accepted⟩ := resolved
    refine (checkpoint_twins resolved).bind fun _ _ _ _ same => ?_
    obtain ⟨rfl, rfl, clear⟩ := same
    split
    · exact .pure ⟨last, resolved, .none⟩
    · exact .pure ⟨last, resolved, .some (accepted clear)⟩

/-- Programs that are alike are executed alike. -/
theorem execute_twins (abreast : Session.Abreast w start start' s s') {program program' : List Stmt}
    (alike : Stmts.Like w.likeness program program') (bound : Nat) :
    Twins (Session.Alike start start') (fun _ _ t t' => Session.Abreast w start start' t t')
      (Guarded.execute Guarded.quiet bound program) (Guarded.execute Guarded.quiet bound program')
      s s' := by
  have meets := Guarded.program_twins
    (Guarded.context_twin abreast.binds s.config.maxCallDepth bound) alike _ _ abreast.machine
  have still {m n : Machine}
      (machines : Machine.Twin w start.machine.output start'.machine.output m n) :
      Session.Abreast w start start' { s with machine := m } { s' with machine := n } :=
    ⟨⟨abreast.config, abreast.unchanged, machines, abreast.binds, abreast.slots, abreast.nodes⟩, abreast.reporter⟩
  have depth : s'.config.maxCallDepth = s.config.maxCallDepth := by rw [abreast.config]
  unfold Twins Guarded.execute
  rw [depth]
  dsimp only
  generalize Guarded.program Guarded.quiet _ program s.machine = one at meets ⊢
  generalize Guarded.program Guarded.quiet _ program' s'.machine = two at meets ⊢
  cases meets with
  | ok machines => exact .ok (still machines)
  | error stops machines =>
      cases stops with
      | exhausted => exact .exhausted
      | @faulted fault token token' tokens =>
          have same : Diagnostic.Twin w.positions (RuntimeError.faulted fault token).diagnostic
              (RuntimeError.faulted fault token').diagnostic := ⟨rfl, rfl, tokens.span⟩
          exact report_twins (still machines) (.cons same .nil)

theorem run_twins (twin : Session.Twin w s s' s s') (sound : s.Sound sites)
    (sound' : s'.Sound sites') (noTokens : s.config.dumpTokens = false)
    (noProgram : s.config.dumpAst = false) (bound : Nat) (source : String) :
    Twins (Session.Alike s s') (fun _ _ => Session.Alike s s') (run bound source)
      (run bound source) s s' := by
  unfold Twins
  rw [← guarded_run_eq sound Guarded.quiet, ← guarded_run_eq sound' Guarded.quiet]
  refine (load_twins twin sound sound' noTokens noProgram source).bind
    fun found found' t t' loaded => ?_
  obtain ⟨more, loaded, programs⟩ := loaded
  cases programs with
  | none => exact .pure loaded.alike
  | some alike =>
      refine (execute_twins loaded alike bound).bind fun _ _ r r' ran => ?_
      refine (checkpoint_twins ran).imp fun _ _ q q' same => ?_
      rw [same.1, same.2.1]
      exact ran.alike

end Stage

/-! ### Several runs -/

/-- A sink that takes everything. -/
structure Sink.Unfailing (sink : Sink) : Prop where
  limit : sink.limit = none
  flushFails : sink.flushFails = false

/-- A run of a history: one that counts, or an extra one. -/
structure Entry where
  common : Bool
  bound : Nat
  source : String
deriving Repr, DecidableEq, Inhabited

/-- What is seen of a run: how it ended, and the texts that it has added to the output and to the
diagnostics. -/
structure Answer where
  exit : Option Exit
  output : String
  diagnostics : String
deriving Repr, DecidableEq, Inhabited

namespace Session

def answer (s after : Session) (exit : Option Exit) : Answer where
  exit := exit
  output := after.machine.output.textFrom s.machine.output.accepted.size
  diagnostics := after.reporter.sink.textFrom s.reporter.sink.accepted.size

/-- What is seen of the runs that count, one after the other. A run that exceeds its bound has no answer
and is the last. -/
def answers : Session → List Entry → List (Option Answer)
  | _, [] => []
  | s, entry :: rest =>
    match s.run entry.bound entry.source with
    | none => [none]
    | some (exit, after) =>
      if entry.common then some (s.answer after exit) :: after.answers rest else after.answers rest

/-- Whether a source is rejected before there is a program to execute. -/
def rejects (s : Session) (source : String) : Bool :=
  match Stage.load source s with
  | .error (.exit _) _ => true
  | _ => false

/-- Whether all extra runs of a history are rejected when it is their turn. -/
def rejectsExtras : Session → List Entry → Bool
  | _, [] => true
  | s, entry :: rest =>
    (entry.common || s.rejects entry.source) &&
      match s.run entry.bound entry.source with
      | none => true
      | some (_, after) => after.rejectsExtras rest

variable {s s' : Session} {sites sites' : List Site} {w : Correspondence}

theorem answers_of_exhausted (common : Bool) {bound : Nat} {source : String} (rest : List Entry)
    (ran : s.run bound source = none) : s.answers (⟨common, bound, source⟩ :: rest) = [none] := by
  unfold answers
  rw [ran]

theorem answers_of_run (common : Bool) {bound : Nat} {source : String} (rest : List Entry)
    {exit : Option Exit} {after : Session} (ran : s.run bound source = some (exit, after)) :
    s.answers (⟨common, bound, source⟩ :: rest) =
      if common then some (s.answer after exit) :: after.answers rest else after.answers rest := by
  conv_lhs => unfold answers
  rw [ran]

theorem answer_eq {after after' : Session} (alike : Session.Alike s s' after after')
    (exit : Option Exit) : s.answer after exit = s'.answer after' exit := by
  obtain ⟨w, twin⟩ := alike
  unfold answer
  rw [twin.machine.output.textFrom, twin.reporter.sink.textFrom]

/-- How a run of one source ends in two sessions that treat any source alike. -/
theorem run_alike (twin : Session.Twin w s s' s s') (sound : s.Sound sites)
    (sound' : s'.Sound sites') (noTokens : s.config.dumpTokens = false)
    (noProgram : s.config.dumpAst = false) (bound : Nat) (source : String) :
    Option.Rel (fun one two => one.1 = two.1 ∧ Session.Alike s s' one.2 two.2)
      (s.run bound source) (s'.run bound source) := by
  have meets := Stage.run_twins twin sound sound' noTokens noProgram bound source
  unfold Stage.Twins at meets
  unfold Session.run
  generalize Stage.run bound source s = one at meets ⊢
  generalize Stage.run bound source s' = two at meets ⊢
  cases meets with
  | ok alike => exact .some ⟨rfl, alike⟩
  | exit alike => exact .some ⟨rfl, alike⟩
  | exhausted => exact .none

/-- A run that is rejected disturbs nothing. -/
theorem run_of_rejects (sound : s.Sound sites) (noTokens : s.config.dumpTokens = false)
    (noProgram : s.config.dumpAst = false) {source : String} (rejected : s.rejects source = true)
    (bound : Nat) : ∃ exit after, s.run bound source = some (some exit, after) ∧
      s.Undisturbed after := by
  have still := Stage.load_undisturbed sound noTokens noProgram source
  unfold Stage.Ends at still
  unfold rejects at rejected
  cases result : Stage.load source s with
  | ok found after =>
      rw [result] at rejected
      cases rejected
  | error halt after =>
      rw [result] at still rejected
      cases halt with
      | exhausted => cases rejected
      | exit exit =>
          refine ⟨exit, after, ?_, still⟩
          unfold Session.run
          rw [Stage.run_eq, Outcome.bind_of_error result]

theorem answers_alike : ∀ (history : List Entry) {s s' : Session} {sites sites' : List Site}
    {w : Correspondence}, Session.Twin w s s' s s' → s.Sound sites → s'.Sound sites' →
      s.config.dumpTokens = false → s.config.dumpAst = false → s.rejectsExtras history = true →
        s.answers history = s'.answers (history.filter (·.common))
  | [], _, _, _, _, _, _, _, _, _, _, _ => rfl
  | ⟨true, bound, source⟩ :: rest, s, s', _, _, _, twin, sound, sound', noTokens, noProgram,
      rejected => by
      have runs := run_alike twin sound sound' noTokens noProgram bound source
      have others := (Bool.and_eq_true_iff.mp rejected).2
      rw [List.filter_cons_of_pos rfl]
      cases one : s.run bound source with
      | none =>
          cases two : s'.run bound source with
          | none => rw [answers_of_exhausted true rest one, answers_of_exhausted true _ two]
          | some found => rw [one, two] at runs; cases runs
      | some found =>
          cases two : s'.run bound source with
          | none => rw [one, two] at runs; cases runs
          | some found' =>
              obtain ⟨exit, after⟩ := found
              obtain ⟨exit', after'⟩ := found'
              rw [one, two] at runs
              rw [one] at others
              cases runs with
              | some both =>
                  obtain ⟨rfl, more, later⟩ := both
                  have quiet := later.unchanged
                  rw [answers_of_run true rest one, answers_of_run true _ two, if_pos rfl, if_pos rfl,
                    answer_eq ⟨more, later⟩, answers_alike rest later.anew (sound.run one)
                      (sound'.run two) (quiet ▸ noTokens) (quiet ▸ noProgram) others]
  | ⟨false, bound, source⟩ :: rest, s, s', _, _, _, twin, sound, sound', noTokens, noProgram,
      rejected => by
      obtain ⟨refused, others⟩ := Bool.and_eq_true_iff.mp rejected
      obtain ⟨exit, after, ran, still⟩ := run_of_rejects sound noTokens noProgram refused bound
      rw [ran] at others
      have quiet := still.config
      rw [List.filter_cons_of_neg (by simp), answers_of_run false rest ran, if_neg (by simp)]
      exact answers_alike rest (still.twin twin) (sound.run ran) sound' (quiet ▸ noTokens)
        (quiet ▸ noProgram) others

end Session

/-- Nothing corresponds yet. -/
def Correspondence.empty : Correspondence where
  nodes _ _ := False
  hidden _ _ := False
  slots _ _ := False
  positions _ _ := False

/-- New sessions treat any source alike. -/
theorem Session.twin_new (config : Config) {output errors output' errors' : Sink}
    (outputs : output.Unfailing) (outputs' : output'.Unfailing) (unfailing : errors.Unfailing)
    (unfailing' : errors'.Unfailing) :
    Session.Twin .empty (Session.new config output errors) (Session.new config output' errors')
      (Session.new config output errors) (Session.new config output' errors') := by
  have frames (id : FrameId) (slot : Slot) :
      ((Machine.new output).environment.frame id).get? slot = none := by
    have empty : (Machine.new output).environment.frame id = Table.empty := by
      unfold Environment.frame
      cases id <;> rfl
    rw [empty]
    rfl
  have environment : Environment.Twin .empty (Machine.new output).environment
      (Machine.new output').environment := by
    refine ⟨rfl, fun _ _ _ => False.elim, fun id slot held => ?_, fun id slot held => ?_, rfl, rfl, rfl⟩
    · rw [frames] at held
      cases held
    · rw [show (Machine.new output').environment = (Machine.new output).environment from rfl,
        frames] at held
      cases held
  refine ⟨⟨rfl, rfl, ⟨environment, rfl, fun _ => .default_twin _, rfl,
    fun _ => ⟨rfl, rfl, .none⟩, rfl, rfl, ?_⟩, ⟨nofun, nofun, nofun⟩, nofun, ?_⟩,
    rfl, nofun, nofun, ?_⟩
  · exact .refl outputs.limit outputs'.limit outputs.flushFails outputs'.flushFails
  · rintro id other (impossible | impossible) <;> cases impossible
  · exact .refl unfailing.limit unfailing'.limit unfailing.flushFails unfailing'.flushFails

/-- Runs that are rejected by the scanner, the parser or the resolver do not disturb a session: without
dumps and with sinks that take everything, every other run ends as it would in a session without the
rejected runs, with the same errors, and adds the same text to the output and to the diagnostics. -/
theorem rejected_runs_leave_no_trace (config : Config) (noTokens : config.dumpTokens = false)
    (noProgram : config.dumpAst = false) {output errors output' errors' : Sink}
    (outputs : output.Unfailing) (outputs' : output'.Unfailing) (unfailing : errors.Unfailing)
    (unfailing' : errors'.Unfailing) (history : List Entry)
    (rejected : (Session.new config output errors).rejectsExtras history = true) :
    (Session.new config output errors).answers history =
      (Session.new config output' errors').answers (history.filter (·.common)) :=
  Session.answers_alike history (Session.twin_new config outputs outputs' unfailing unfailing')
    (Session.sound_new config output errors) (Session.sound_new config output' errors') noTokens
    noProgram rejected

/-- Between two runs that share a closure, the scanner, the parser and the resolver each reject a source;
the second of the two ends at an undefined variable. -/
theorem rejected_runs_leave_no_trace_of_closure :
    let history : List Entry :=
      [⟨true, 8, "var f; { var a = true; fun get() { return a; } f = get; }"⟩,
        ⟨false, 8, "var text = \"open"⟩, ⟨false, 8, "print f()"⟩, ⟨false, 8, "{ var a; return a; }"⟩,
        ⟨true, 8, "print f(); missing;"⟩]
    (Session.new {} .unlimited .unlimited).rejectsExtras history = true ∧
      (Session.new {} .unlimited .unlimited).answers history =
        (Session.new {} .unlimited .unlimited).answers (history.filter (·.common)) := by
  have rejected : (Session.new {} .unlimited .unlimited).rejectsExtras
      [⟨true, 8, "var f; { var a = true; fun get() { return a; } f = get; }"⟩,
        ⟨false, 8, "var text = \"open"⟩, ⟨false, 8, "print f()"⟩, ⟨false, 8, "{ var a; return a; }"⟩,
        ⟨true, 8, "print f(); missing;"⟩] = true := by
    decide +kernel
  exact ⟨rejected, rejected_runs_leave_no_trace {} rfl rfl ⟨rfl, rfl⟩ ⟨rfl, rfl⟩ ⟨rfl, rfl⟩ ⟨rfl, rfl⟩ _
    rejected⟩

end Lox
