import Lox.Proofs.Chronicle.Operations
import Lox.Proofs.Depth.Agreement
import Lox.Proofs.Session.Rounds
import Lox.Proofs.Trace.Restore

set_option autoImplicit false

/-! The chronicle of a session, over all of its runs. What a run adds to it is what the interpreter notes that
keeps a chronicle, and this leaves the machine that the run leaves. -/

namespace Lox

open Chronicle

namespace Session

/-- The chronicle of a session, after a run as well. -/
def chronicle (s : Session) (deeds : List Deed) (bound : Nat) (source : String) : Chronicle :=
  match Stage.load source s with
  | .ok (some program) loaded => Outcome.state <|
    (Noting.interpreter loaded.bindings loaded.config.maxCallDepth bound).stmts program
      ⟨loaded.machine, deeds⟩
  | result => ⟨(Outcome.state result).machine, deeds⟩

/-- Sessions that are reached by runs, with what has happened in these. -/
inductive Chronicled : List Deed → Session → Prop
  | new (config : Config) (output errors : Sink) : Chronicled [] (Session.new config output errors)
  | run {deeds : List Deed} {s after : Session} {exit : Option Exit} (bound : Nat) (source : String)
      (before : Chronicled deeds s) (ran : s.run bound source = some (exit, after)) :
      Chronicled (s.chronicle deeds bound source).deeds after
  | resetScopes {deeds : List Deed} {s : Session} (before : Chronicled deeds s) :
      Chronicled deeds s.resetScopes

end Session

namespace Chronicle

variable {known : Site → Prop} {m : Machine} {deeds : List Deed}

theorem Book.new (output : Sink) : Book known (Machine.new output) [] where
  closed := by
    refine ⟨fun id slot value held => ?_, nofun, nofun, nofun, nofun⟩
    have empty : (Machine.new output).environment.frame id = Table.empty := by
      cases id <;> rfl
    rw [empty] at held
    cases held
  orderly _ := trivial
  classes _ small := absurd small (Nat.not_lt_zero _)
  made _ _ _ _ _ member := absurd member List.not_mem_nil
  instances _ small := absurd small (Nat.not_lt_zero _)
  born _ _ member := absurd member List.not_mem_nil
  properties _ _ := rfl
  globals _ := rfl

theorem Tells.wrote {s after : Session} (tells : Tells known ⟨s.machine, deeds⟩) (wrote : s.Wrote after) :
    Tells known ⟨after.machine, deeds⟩ := by
  obtain ⟨output, same⟩ := wrote
  rw [same]
  exact ⟨tells.book.accept output s.machine.depth, tells.truthful⟩

theorem Tells.reset (tells : Tells known ⟨m, deeds⟩) : Tells known ⟨m.reset, deeds⟩ :=
  ⟨(tells.book.current m.environment.root).accept m.output 0, tells.truthful⟩

theorem Tells.mono {more : Site → Prop} {c : Chronicle} (tells : c.Tells known)
    (wider : ∀ site, known site → more site) : c.Tells more :=
  ⟨tells.book.mono wider, tells.truthful.mono wider⟩

end Chronicle

/-- A program whose sites are known, if it is orderly as it is read. -/
theorem Grammar.Tree.accepted {known : Site → Prop} {program : List Stmt} (orderly : Tree.stmts program)
    (sites : ∀ site ∈ Sites.program program, known site) :
    Orderly.stmts (ClassDecl.Accepted known) program :=
  Orderly.stmts_refine (fun path _ tells inside => ⟨tells, path, inside⟩) program [] orderly sites

/-- Where two runs end alike, the chronicle agrees with the last machine. -/
theorem Chronicle.ends_of_concurs {known : Site → Prop} {w : Couple Unit Chronicle Machine} {α : Type}
    {good : Couple Unit Chronicle Machine → α → Prop} {one : EStateM.Result Stop Chronicle α}
    {two : EStateM.Result Stop Machine α} (concurs : Concurs (bond known) w good one two) :
    Outcome.state two = (Outcome.state one).machine ∧ (Outcome.state one).Tells known ∧
      w.left.Continues (Outcome.state one) := by
  cases concurs with
  | ok later agree => exact ⟨agree.1, agree.2, later⟩
  | error later agree => exact ⟨agree.1, agree.2, later⟩

section

variable {known : Site → Prop} {w : Couple Unit Chronicle Machine} {α : Type}
  {good : Couple Unit Chronicle Machine → α → Prop} {one : EStateM.Result Stop Chronicle α} {m : Machine}

theorem Chronicle.ok_of_concurs {a : α} (concurs : Concurs (bond known) w good one (.ok a m)) :
    ∃ deeds, one = .ok a ⟨m, deeds⟩ ∧ Tells known ⟨m, deeds⟩ ∧ w.left.Continues ⟨m, deeds⟩ := by
  cases concurs with
  | @ok _ left _ _ later agree =>
    obtain ⟨own, deeds⟩ := left
    obtain rfl : m = own := agree.1
    exact ⟨deeds, rfl, agree.2, later⟩

theorem Chronicle.error_of_concurs {stop : Stop} (concurs : Concurs (bond known) w good one (.error stop m)) :
    ∃ deeds, one = .error stop ⟨m, deeds⟩ ∧ Tells known ⟨m, deeds⟩ ∧ w.left.Continues ⟨m, deeds⟩ := by
  cases concurs with
  | @error _ left _ _ later agree =>
    obtain ⟨own, deeds⟩ := left
    obtain rfl : m = own := agree.1
    exact ⟨deeds, rfl, agree.2, later⟩

end

namespace Noting

variable {known : Site → Prop} {bindings : Bindings} {c : Chronicle} {program : List Stmt}

/-- Both interpreters run a program alike. -/
theorem stmts_concur (vouched : Vouched known bindings) (limit bound : Nat) (tells : c.Tells known)
    (orderly : Orderly.stmts (ClassDecl.Accepted known) program) :
    Concurs (bond known) ⟨(), c, c.machine⟩ (bond known).hasFlow
      ((interpreter bindings limit bound).stmts program c)
      (Exec.stmts (Exec.context bindings limit bound) program c.machine) := by
  have ran := (interpreter_tandem vouched limit bound).stmts program orderly ⟨(), c, c.machine⟩ ⟨rfl, tells⟩
    trivial
  rw [Exec.stmts_steps] at ran
  exact ran

end Noting

namespace Session

variable {sites : List Site} {s after : Session} {deeds : List Deed}

/-- A program that has been loaded may be run with a chronicle. -/
structure Loads (sites : List Site) (deeds : List Deed) (loaded : Session) (program : List Stmt) : Prop where
  vouched : Vouched (· ∈ sites ++ Sites.program program) loaded.bindings
  tells : Tells (· ∈ sites ++ Sites.program program) ⟨loaded.machine, deeds⟩
  orderly : Orderly.stmts (ClassDecl.Accepted (· ∈ sites ++ Sites.program program)) program

theorem loads_chronicle (sound : s.Sound sites) (tells : Tells (· ∈ sites) ⟨s.machine, deeds⟩)
    {source : String} {program : List Stmt} {loaded : Session}
    (result : Stage.load source s = .ok (some program) loaded) : Loads sites deeds loaded program := by
  have loads := Stage.load_ends sound source
  have writes := Stage.load_writes (s := s) source
  have accepts := Stage.load_accepts (s := s) source
  unfold Stage.Writes Stage.Ends at writes
  unfold Stage.Ends at loads accepts
  rw [result] at loads writes accepts
  obtain ⟨ready, -⟩ := loads.2 program rfl
  obtain ⟨rfl, -⟩ := accepts program rfl
  refine ⟨ready.vouched, ?_, ?_⟩
  · exact (tells.wrote writes).mono fun site member => List.mem_append_left _ member
  · exact Grammar.Tree.accepted (s.round_orderly source) fun site member => List.mem_append_right sites member

/-- After a run the chronicle of a session has been continued, and it tells the truth. -/
theorem chronicle_tells (sound : s.Sound sites) (tells : Tells (· ∈ sites) ⟨s.machine, deeds⟩) (bound : Nat)
    (source : String) : (s.chronicle deeds bound source).Tells (· ∈ sites ++ s.executed source) ∧
      ∃ new, (s.chronicle deeds bound source).deeds = new ++ deeds := by
  have writes := Stage.load_writes (s := s) source
  unfold Stage.Writes Stage.Ends at writes
  have idle {loaded : Session} (wrote : s.Wrote loaded) :
      Tells (· ∈ sites ++ []) ⟨loaded.machine, deeds⟩ := by
    rw [List.append_nil]
    exact tells.wrote wrote
  unfold chronicle executed
  cases result : Stage.load source s with
  | error halt loaded =>
    rw [result] at writes
    exact ⟨idle writes, [], rfl⟩
  | ok found loaded =>
    rw [result] at writes
    cases found with
    | none => exact ⟨idle writes, [], rfl⟩
    | some program =>
      obtain ⟨vouched, start, orderly⟩ := loads_chronicle sound tells result
      have ended := ends_of_concurs
        (Noting.stmts_concur vouched loaded.config.maxCallDepth bound start orderly)
      exact ⟨ended.2.1, ended.2.2.deeds⟩

/-- The chronicle of a run ends where the run ends. -/
theorem chronicle_of_run (sound : s.Sound sites) (tells : Tells (· ∈ sites) ⟨s.machine, deeds⟩) {bound : Nat}
    {source : String} {exit : Option Exit} (ran : s.run bound source = some (exit, after)) :
    after.machine = (s.chronicle deeds bound source).machine := by
  refine of_run (·.machine = (s.chronicle deeds bound source).machine) ?_ ran
  unfold Stage.Ends chronicle
  rw [Stage.run_eq]
  cases result : Stage.load source s with
  | error halt loaded =>
    rw [Outcome.bind_of_error result]
    rfl
  | ok found loaded =>
    rw [Outcome.bind_of_ok result]
    cases found with
    | none => rfl
    | some program =>
      obtain ⟨vouched, start, orderly⟩ := loads_chronicle sound tells result
      have ended := ends_of_concurs
        (Noting.stmts_concur vouched loaded.config.maxCallDepth bound start orderly)
      have same := (Exec.machine_program (Exec.context loaded.bindings loaded.config.maxCallDepth bound)
        program loaded.machine).trans ended.1
      apply ((Stage.execute_ends_on bound program).imp (fun _ here => here.trans same)
        fun _ _ here => here.trans same).bind
      intro _ executed here
      unfold Stage.Ends Stage.checkpoint
      cases executed.reporter.checkpoint <;> exact here

theorem Chronicled.tells (chronicled : s.Chronicled deeds) :
    ∃ sites, s.Sound sites ∧ Tells (· ∈ sites) ⟨s.machine, deeds⟩ := by
  induction chronicled with
  | new config output errors => exact ⟨[], sound_new config output errors, .new output, trivial⟩
  | run bound source _ ran before =>
    -- The run may have brought new code, so more sites are known after it than before.
    obtain ⟨sites, sound, tells⟩ := before
    have after := (chronicle_tells sound tells bound source).1
    refine ⟨_, sound.run ran, ?_⟩
    rw [chronicle_of_run sound tells ran]
    exact after
  | resetScopes _ before =>
    obtain ⟨sites, sound, tells⟩ := before
    exact ⟨sites, sound.resetScopes, tells.reset⟩

end Session
end Lox
