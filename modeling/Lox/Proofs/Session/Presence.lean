import Lox.Proofs.Session.Load

set_option autoImplicit false

/-! Sessions that are reached by runs, some of them refused or stopped by an error. A guard at every name
that has a slot never raises its alarm in any of their runs; so a variable that is not defined is always
one whose name has no slot. -/

namespace Lox

namespace Guarded

def execute (alarm : Alarm) (bound : Nat) (program : List Stmt) : Stage Unit := fun s =>
  let context := Guarded.context alarm s.bindings s.config.maxCallDepth bound
  match Guarded.program alarm context program s.machine with
  | .ok _ machine => .ok () { s with machine }
  | .error (.error e) machine => Stage.report [e.diagnostic] { s with machine }
  | .error .exhausted machine => .error .exhausted { s with machine }

def run (alarm : Alarm) (bound : Nat) (source : String) : Stage Unit :=
  Stage.load source >>= Stage.finish (execute alarm bound)

end Guarded

namespace Session

/-- The sites of the program that a run of a source executes, if it executes one. -/
def executed (s : Session) (source : String) : List Site :=
  match Stage.load source s with
  | .ok (some program) _ => Sites.program program
  | _ => []

/-- Sessions that are reached by runs, with the sites of the code that these have executed. -/
inductive Reachable : List Site → Session → Prop
  | new (config : Config) (output errors : Sink) : Reachable [] (Session.new config output errors)
  | run {sites : List Site} {s after : Session} {exit : Option Exit} (bound : Nat) (source : String)
      (before : Reachable sites s) (ran : s.run bound source = some (exit, after)) :
      Reachable (sites ++ s.executed source) after
  | resetScopes {sites : List Site} {s : Session} (before : Reachable sites s) :
      Reachable sites s.resetScopes

end Session

theorem Machine.sound_new (known : Site → Prop) (bindings : Bindings) (output : Sink) :
    (Machine.new output).Sound known bindings := by
  refine ⟨Nat.zero_lt_one, Nat.zero_lt_one, fun id slot value held => ?_, nofun,
    fun id name value held => ?_, fun id name value held => ?_⟩
  · have empty : (Machine.new output).environment.frame id = Table.empty := by
      unfold Environment.frame
      cases id <;> rfl
    rw [empty] at held
    cases held
  · cases held
  · cases held

namespace Session

variable {sites : List Site} {s : Session}

theorem sound_new (config : Config) (output errors : Sink) :
    Session.Sound [] (Session.new config output errors) := by
  have none (site : Site) : site ∉ ([] : List Site) := List.not_mem_nil
  exact ⟨fun _ _ => rfl, fun site member => absurd member (none site),
    ⟨fun site member => absurd member (none site), fun site member => absurd member (none site)⟩,
    Machine.sound_new _ _ output⟩

theorem Sound.resetScopes (sound : s.Sound sites) : s.resetScopes.Sound sites :=
  ⟨sound.below, sound.nodes, sound.vouched, sound.machine.root, sound.machine.root,
    sound.machine.cells, sound.machine.globals, sound.machine.members, sound.machine.fields⟩

theorem Sound.execute (sound : s.Sound sites) {machine : Machine}
    (steps : s.machine.Steps (· ∈ sites) s.bindings machine) :
    Session.Sound sites { s with machine := machine } :=
  ⟨sound.below, sound.nodes, sound.vouched, steps.sound⟩

end Session

namespace Stage

variable {sites : List Site} {s : Session}

theorem program_keeps_of_sound {program : List Stmt}
    (sound : s.Sound (sites ++ Sites.program program)) (regular : Regular.stmts program)
    (alarm : Guarded.Alarm) (bound : Nat) :
    Keeps (· ∈ sites ++ Sites.program program) s.bindings s.machine
      (Guarded.program alarm (Guarded.context alarm s.bindings s.config.maxCallDepth bound) program)
      (Exec.program (Exec.context s.bindings s.config.maxCallDepth bound) program)
      fun _ _ => True :=
  program_keeps sound.vouched alarm s.config.maxCallDepth bound sound.machine
    (fun _ member => List.mem_append_right _ member) regular

theorem execute_ends {program : List Stmt} (sound : s.Sound (sites ++ Sites.program program))
    (regular : Regular.stmts program) (bound : Nat) :
    Ends (execute bound program) s (Session.Sound (sites ++ Sites.program program))
      fun _ after => after.Sound (sites ++ Sites.program program) := by
  have kept := (program_keeps_of_sound sound regular (fun _ _ => .exhausted) bound).kept
  unfold Ends execute
  cases result : Exec.program (Exec.context s.bindings s.config.maxCallDepth bound) program
      s.machine with
  | ok last machine =>
      rw [result] at kept
      simp only [result]
      exact sound.execute kept.1
  | error stop machine =>
      rw [result] at kept
      cases stop with
      | error e =>
          simp only [result]
          have still := sound.execute kept.1
          exact (report_ends [e.diagnostic]).imp (fun _ => still.shown) fun _ _ => still.shown
      | exhausted =>
          simp only [result]
          exact sound.execute kept.1

theorem guarded_execute_eq {program : List Stmt}
    (sound : s.Sound (sites ++ Sites.program program)) (regular : Regular.stmts program)
    (alarm : Guarded.Alarm) (bound : Nat) :
    Guarded.execute alarm bound program s = execute bound program s := by
  have same := (program_keeps_of_sound sound regular alarm bound).same
  unfold Guarded.execute execute
  cases result :
      Exec.program (Exec.context s.bindings s.config.maxCallDepth bound) program s.machine with
  | ok last machine => simp only [same, result]
  | error stop machine => cases stop <;> simp only [same, result]

/-- A run leaves a sound session, in which the code of the program that it executed may run as well. -/
theorem run_ends (sound : s.Sound sites) (bound : Nat) (source : String) :
    Ends (run bound source) s (Session.Sound (sites ++ s.executed source))
      fun _ after => after.Sound (sites ++ s.executed source) := by
  have loads := load_ends sound source
  unfold Ends at loads ⊢
  rw [run_eq]
  unfold Session.executed
  cases result : load source s with
  | error halt after =>
      rw [result] at loads
      rw [Outcome.bind_of_error result]
      rw [List.append_nil]
      exact loads
  | ok found after =>
      rw [result] at loads
      rw [Outcome.bind_of_ok result]
      cases found with
      | none =>
          rw [List.append_nil]
          exact loads.1
      | some program =>
          obtain ⟨ready, regular⟩ := loads.2 program rfl
          exact (execute_ends ready regular bound).bind fun _ last still =>
            checkpoint_ends.imp (fun _ => still.shown) fun _ _ => still.shown

theorem guarded_run_eq (sound : s.Sound sites) (alarm : Guarded.Alarm) (bound : Nat)
    (source : String) : Guarded.run alarm bound source s = run bound source s := by
  have loads := load_ends sound source
  unfold Ends at loads
  rw [run_eq]
  unfold Guarded.run
  cases result : load source s with
  | error halt after => rw [Outcome.bind_of_error result, Outcome.bind_of_error result]
  | ok found after =>
      rw [result] at loads
      rw [Outcome.bind_of_ok result, Outcome.bind_of_ok result]
      cases found with
      | none => rfl
      | some program =>
          obtain ⟨ready, regular⟩ := loads.2 program rfl
          exact Outcome.bind_congr (guarded_execute_eq ready regular alarm bound)

end Stage

namespace Session

variable {sites : List Site} {s : Session}

theorem Sound.run (sound : s.Sound sites) {bound : Nat} {source : String} {exit : Option Exit}
    {after : Session} (ran : s.run bound source = some (exit, after)) :
    after.Sound (sites ++ s.executed source) :=
  of_run _ (Stage.run_ends sound bound source) ran

/-- In every session that is reached by runs, all code that has been executed may run. -/
theorem Reachable.sound (reachable : s.Reachable sites) : s.Sound sites := by
  induction reachable with
  | new config output errors => exact sound_new config output errors
  | run bound source _ ran before => exact before.run ran
  | resetScopes _ before => exact before.resetScopes

end Session

/-- In a session that is reached by runs, no run evaluates or assigns a name that has a slot where no frame
of the current chain holds that slot: whatever alarm were raised there, the run would not differ. If a
program that is loaded stops at an undefined variable, it does so at a name without a slot. -/
theorem run_finds_slots {sites : List Site} {s : Session} (reachable : s.Reachable sites)
    (bound : Nat) (source : String) :
    (∀ alarm, Guarded.run alarm bound source s = Stage.run bound source s) ∧
      ∀ program loaded, Stage.load source s = .ok (some program) loaded →
        ∀ name token last,
          Exec.program (Exec.context loaded.bindings loaded.config.maxCallDepth bound) program
              loaded.machine = .error (.error (.faulted (.undefinedVariable name) token)) last →
            ∃ site ∈ sites ++ Sites.program program, ∃ id,
              site.mention.named? = some (id, token) ∧ loaded.bindings.slot? id = none ∧
                token.lexeme = name := by
  have sound := reachable.sound
  refine ⟨fun alarm => Stage.guarded_run_eq sound alarm bound source, ?_⟩
  intro program loaded result name token last failed
  have loads := Stage.load_ends sound source
  unfold Stage.Ends at loads
  rw [result] at loads
  obtain ⟨ready, regular⟩ := loads.2 program rfl
  have kept := (Stage.program_keeps_of_sound ready regular (fun _ _ => .exhausted) bound).kept
  rw [failed] at kept
  obtain ⟨site, id, member, named, free, same⟩ := kept.2 name token rfl
  exact ⟨site, member, id, named, free, same⟩

/-- A closure of an earlier run is called in a later one. -/
theorem run_finds_slots_of_closure :
    (Session.run (Session.new {} .unlimited .unlimited) 8
        "var f; { var a = true; fun get() { return a; } f = get; }").isSome = true ∧
      ∀ exit s, Session.run (Session.new {} .unlimited .unlimited) 8
          "var f; { var a = true; fun get() { return a; } f = get; }" = some (exit, s) →
        ∀ alarm, Guarded.run alarm 8 "print f();" s = Stage.run 8 "print f();" s :=
  ⟨by decide +kernel, fun exit s ran =>
    (run_finds_slots ((Session.Reachable.new {} .unlimited .unlimited).run 8 _ ran) 8
      "print f();").1⟩

end Lox
