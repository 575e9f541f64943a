import Lox.Proofs.Return.Strict
import Lox.Proofs.Session.Rounds
import Lox.Proofs.Trace.Restore

set_option autoImplicit false

/-! Sessions run strictly. A program that is executed has been accepted, and all the functions that a
machine has come from such programs; so no run ever raises the alarm of the strict interpreter, and
nothing that is returned gets lost. -/

namespace Lox

namespace Session

/-- Among what a session reads, only methods are initializers. -/
theorem round_initializers (s : Session) (source : String) :
    Functions.stmts FunctionDecl.IsPlain (fun _ => True) (s.round source).program := by
  unfold Session.round
  cases Stage.loadTokens s.config source s with
  | error halt scanned => trivial
  | ok tokens scanned => exact parse_plain tokens scanned.nextNode

theorem round_accepted {s : Session} {source : String} (accepted : (s.round source).ruling = .accepted) :
    ∃ bindings, (resolve bindings (s.round source).program).1 = none := by
  unfold Session.round at accepted ⊢
  cases result : Stage.loadTokens s.config source s with
  | error halt scanned =>
      rw [result] at accepted
      cases accepted
  | ok tokens scanned =>
      rw [result] at accepted
      exact ⟨scanned.bindings, accepted_of_ruling accepted⟩

/-- A program that is loaded has been accepted. -/
theorem accepted_of_load {s loaded : Session} {source : String} {program : List Stmt}
    (result : Stage.load source s = .ok (some program) loaded) :
    (∃ bindings, (resolve bindings program).1 = none) ∧
      Functions.stmts FunctionDecl.IsPlain (fun _ => True) program := by
  have accepts := Stage.load_accepts (s := s) source
  unfold Stage.Ends at accepts
  rw [result] at accepts
  obtain ⟨rfl, accepted⟩ := accepts program rfl
  exact ⟨round_accepted accepted, s.round_initializers source⟩

theorem Wrote.modest {s after : Session} (wrote : s.Wrote after) (modest : s.machine.Modest) :
    after.machine.Modest := by
  obtain ⟨output, same⟩ := wrote
  rw [same]
  exact modest

end Session

namespace Strict

variable {s : Session}

theorem execute_eq (alarm : Alarm) (modest : s.machine.Modest) {program : List Stmt}
    {accepting : Bindings} (accepted : (resolve accepting program).1 = none)
    (plain : Functions.stmts FunctionDecl.IsPlain (fun _ => True) program) (bound : Nat) :
    execute alarm bound program s = Stage.execute bound program s := by
  have same := (program_alike alarm accepted plain s.bindings s.config.maxCallDepth bound).same
    s.machine modest
  unfold execute Stage.execute
  cases result : Exec.program (Exec.context s.bindings s.config.maxCallDepth bound) program
      s.machine with
  | ok last machine => simp only [same, result]
  | error stop machine => cases stop <;> simp only [same, result]

/-- On a session whose functions are modest, a strict run is a run, and leaves it modest. -/
theorem run_eq_of_modest (alarm : Alarm) (modest : s.machine.Modest) (bound : Nat) (source : String) :
    run alarm bound source s = Stage.run bound source s ∧
      Stage.Ends (Stage.run bound source) s (·.machine.Modest) fun _ after => after.machine.Modest := by
  have wrote := Stage.load_writes (s := s) source
  rw [Stage.run_eq]
  unfold run
  unfold Stage.Writes Stage.Ends at wrote
  unfold Stage.Ends
  cases result : Stage.load source s with
  | error halt loaded =>
      rw [result] at wrote
      rw [Outcome.bind_of_error result, Outcome.bind_of_error result]
      exact ⟨rfl, wrote.modest modest⟩
  | ok found loaded =>
      rw [result] at wrote
      rw [Outcome.bind_of_ok result, Outcome.bind_of_ok result]
      have still := wrote.modest modest
      cases found with
      | none => exact ⟨rfl, still⟩
      | some program =>
          obtain ⟨⟨accepting, accepted⟩, plain⟩ := Session.accepted_of_load result
          have alike := program_alike alarm accepted plain loaded.bindings
            loaded.config.maxCallDepth bound
          have ended := (Stage.execute_ends_on (s := loaded) bound program).imp
            (fun _ same => same ▸ alike.modest loaded.machine still)
            fun _ _ same => same ▸ alike.modest loaded.machine still
          refine ⟨Outcome.bind_congr (execute_eq alarm still accepted plain bound),
            ended.bind fun _ executed modest => ?_⟩
          exact Stage.checkpoint_ends.imp (fun _ shown => Session.Wrote.modest shown.machine modest)
            fun _ _ shown => Session.Wrote.modest shown.machine modest

theorem modest_of_reachable {sites : List Site} (reachable : s.Reachable sites) : s.machine.Modest := by
  induction reachable with
  | new config output errors => exact Machine.Modest.new output
  | run bound source _ ran before =>
      exact Session.of_run (·.machine.Modest)
        (run_eq_of_modest (fun _ => .exhausted) before bound source).2 ran
  | resetScopes _ before => exact before

end Strict

/-- A `return` never leaves a program. In a program that is accepted no statement ends by one, in whatever
context and on whatever machine, so all are run though their ends are not looked at. What a session
executes has been accepted; and if an alarm were raised in its runs wherever a value that is returned
gets lost, at the end of an initializer that returned something other than `nil` or of a statement of
the program, none of them would differ. -/
theorem returns_stay_inside {sites : List Site} {s : Session} (reachable : s.Reachable sites) :
    (∀ bindings program, (resolve bindings program).1 = none → ∀ ctx : Context,
      (∀ statement ∈ program, ∀ m v after, Exec.stmt ctx statement m ≠ .ok (.returned v) after) ∧
        Exec.stmts ctx program = (do Exec.each ctx program; return .normal) ∧
          Exec.program ctx program = Exec.closing (Exec.each ctx program)) ∧
    (∀ source program loaded, Stage.load source s = .ok (some program) loaded →
      ∃ bindings, (resolve bindings program).1 = none) ∧
    ∀ (alarm : Strict.Alarm) (bound : Nat) (source : String),
      Strict.run alarm bound source s = Stage.run bound source s := by
  refine ⟨fun bindings program accepted ctx => ?_, fun source program loaded result => ?_,
    fun alarm bound source => ?_⟩
  · have goOn (st : Stmt) (member : st ∈ program) := stmt_goes_on accepted member ctx
    have eachRuns := Strict.stmts_eq_each ctx goOn
    refine ⟨goOn, eachRuns, ?_⟩
    rw [Exec.program_eq, eachRuns, Strict.closing_discard]
  · exact (Session.accepted_of_load result).1
  · exact (Strict.run_eq_of_modest alarm (Strict.modest_of_reachable reachable) bound source).1

/-- An initializer that ends early, and one that makes a function which returns a value. -/
theorem returns_stay_inside_of_early_end :
    let first := "class A { init(n) { this.n = n; while (true) { if (n) { return; } n = true; } } }
      class B { init() { fun two() { return 2; } this.n = two(); return; } }"
    let second := "print A(true).n; print B().n; print A(false).init(nil).n;"
    let s := Session.new {} .unlimited .unlimited
    (s.run 30 first).map (·.1.isNone) = some true ∧
      ∀ exit after, s.run 30 first = some (exit, after) →
        (after.run 30 second).map (·.1.isNone) = some true ∧
          ∀ alarm, Strict.run alarm 30 second after = Stage.run 30 second after := by
  intro first second s
  have goes : (s.run 30 first).all (fun ran => (ran.2.run 30 second).map (·.1.isNone) = some true) =
      true := by decide +kernel
  refine ⟨by decide +kernel, fun exit after ran => ?_⟩
  rw [ran] at goes
  exact ⟨of_decide_eq_true goes, fun alarm => (returns_stay_inside
    ((Session.Reachable.new {} .unlimited .unlimited).run 30 first ran)).2.2 alarm 30 second⟩

end Lox
