import Lox.Proofs.Session.Presence
import Lox.Proofs.Trace.Balance

set_option autoImplicit false

/-! Between two runs a session stands outside all blocks and calls, whatever the runs before have come
to; to leave the scopes of an abandoned run changes nothing. -/

namespace Lox

/-- Outside all blocks and calls. -/
structure Machine.AtRest (m : Machine) : Prop where
  current : m.environment.current = m.environment.root
  root : m.environment.root = Environment.new.root
  depth : m.depth = 0

namespace Machine.AtRest

variable {m after : Machine}

theorem new (output : Sink) : (Machine.new output).AtRest :=
  ⟨rfl, rfl, rfl⟩

theorem stays (rest : m.AtRest) (stays : m.Stays after) : after.AtRest := by
  constructor
  · rw [stays.current, stays.root]
    exact rest.current
  · rw [stays.root]
    exact rest.root
  · rw [stays.depth]
    exact rest.depth

theorem reset (rest : m.AtRest) : m.reset = m := by
  obtain ⟨⟨frames, current, root, globals⟩, functions, classes, instances, depth, output⟩ := m
  have same : current = root := rest.current
  have zero : depth = 0 := rest.depth
  subst same zero
  rfl

end Machine.AtRest

namespace Exec

variable (bindings : Bindings) (maxDepth bound : Nat) (m : Machine)

theorem expr_stays (e : Expr) : (expr (context bindings maxDepth bound) e).Stays m := by
  have tracks := Traced.expr_tracks (Traced.follows_calls bindings maxDepth bound) e (.start m [])
  exact tracks.stays

theorem stmt_stays (s : Stmt) : (stmt (context bindings maxDepth bound) s).Stays m := by
  have tracks := Traced.stmt_tracks (Traced.follows_calls bindings maxDepth bound) s (.start m [])
  exact tracks.stays

theorem stmts_stays (ss : List Stmt) : (stmts (context bindings maxDepth bound) ss).Stays m := by
  have tracks :=
    Traced.stmts_tracks (Traced.follows_calls bindings maxDepth bound) ss (.start m [])
  exact tracks.stays

theorem program_stays (ss : List Stmt) :
    (program (context bindings maxDepth bound) ss).Stays m := by
  have runs := stmts_stays bindings maxDepth bound m ss
  unfold Stays at runs ⊢
  unfold program
  cases result : stmts (context bindings maxDepth bound) ss m with
  | ok flow last =>
      rw [result] at runs
      dsimp only
      rw [flush_state]
      exact runs
  | error stop last =>
      rw [result] at runs
      cases stop with
      | exhausted => exact runs
      | error e =>
          have flushed := flush_state last
          dsimp only
          split
          · next same => rw [same] at flushed; exact flushed ▸ runs
          · next same => rw [same] at flushed; exact flushed ▸ runs

end Exec

namespace Session

variable {s after : Session}

theorem Wrote.atRest (wrote : s.Wrote after) (rest : s.machine.AtRest) : after.machine.AtRest := by
  obtain ⟨output, same⟩ := wrote
  rw [same]
  exact ⟨rest.current, rest.root, rest.depth⟩

end Session

namespace Stage

variable {s : Session}

/-- A program that is executed leaves its last machine to the session. -/
theorem execute_ends_on (bound : Nat) (program : List Stmt) :
    let last := Outcome.state
      (Exec.program (Exec.context s.bindings s.config.maxCallDepth bound) program s.machine)
    Ends (execute bound program) s (·.machine = last) fun _ after => after.machine = last := by
  unfold Ends execute
  cases result : Exec.program (Exec.context s.bindings s.config.maxCallDepth bound) program
      s.machine with
  | ok done last =>
      simp only [result]
      rfl
  | error stop last => cases stop <;> simp only [result] <;> rfl

theorem execute_rests (rest : s.machine.AtRest) (bound : Nat) (program : List Stmt) :
    Ends (execute bound program) s (·.machine.AtRest) fun _ after => after.machine.AtRest := by
  have stays := Exec.program_stays s.bindings s.config.maxCallDepth bound s.machine program
  exact (execute_ends_on bound program).imp (fun _ same => same ▸ rest.stays stays)
    fun _ _ same => same ▸ rest.stays stays

/-- Whatever a run comes to, the session stands outside all blocks and calls again. -/
theorem run_rests (rest : s.machine.AtRest) (bound : Nat) (source : String) :
    Ends (run bound source) s (·.machine.AtRest) fun _ after => after.machine.AtRest := by
  rw [run_eq]
  refine Ends.bind ((load_writes source).imp (fun _ wrote => wrote.atRest rest)
    fun _ _ wrote => wrote.atRest rest) fun found loaded rested => ?_
  cases found with
  | none => exact rested
  | some program =>
      apply (execute_rests rested bound program).bind
      intro _ executed rested
      exact checkpoint_ends.imp (fun _ shown => Session.Wrote.atRest shown.machine rested)
        fun _ _ shown => Session.Wrote.atRest shown.machine rested

end Stage

namespace Session

theorem atRest_of_run {s after : Session} {bound : Nat} {source : String} {exit : Option Exit}
    (rest : s.machine.AtRest) (ran : s.run bound source = some (exit, after)) :
    after.machine.AtRest :=
  of_run (·.machine.AtRest) (Stage.run_rests rest bound source) ran

theorem Reachable.atRest {sites : List Site} {s : Session} (reachable : s.Reachable sites) :
    s.machine.AtRest := by
  induction reachable with
  | new config output errors => exact Machine.AtRest.new output
  | run bound source _ ran before => exact atRest_of_run before ran
  | resetScopes _ before => exact ⟨rfl, before.root, rfl⟩

end Session

/-- Whatever an expression or a statement comes to, the chain of frames and the depth of calls are then as
they were before; on the way no moment is deeper than calls may nest, if the first is not. So after
every run of a session, failed or not, the machine stands on the root frame with no call open, and
leaving the scopes changes nothing. -/
theorem evaluation_restores_chain_and_depth {sites : List Site} {s : Session}
    (reachable : s.Reachable sites) (bindings : Bindings) (maxDepth bound : Nat) :
    let ctx := Exec.context bindings maxDepth bound
    let calls := Traced.calls bindings maxDepth bound
    (∀ (e : Expr) (m : Machine), m.Stays (Outcome.state (Exec.expr ctx e m))) ∧
    (∀ (st : Stmt) (m : Machine), m.Stays (Outcome.state (Exec.stmt ctx st m))) ∧
    (∀ (e : Expr) (m : Machine) (declared : List String), m.depth ≤ maxDepth →
      let traced := Traced.expr ctx calls e (.start m declared)
      Traced.forget traced = Exec.expr ctx e m ∧
        ∀ moment ∈ (Outcome.state traced).moments, moment.machine.depth ≤ maxDepth) ∧
    (∀ (st : Stmt) (m : Machine) (declared : List String), m.depth ≤ maxDepth →
      let traced := Traced.stmt ctx calls st (.start m declared)
      Traced.forget traced = Exec.stmt ctx st m ∧
        ∀ moment ∈ (Outcome.state traced).moments, moment.machine.depth ≤ maxDepth) ∧
    ∀ source exit after, s.run bound source = some (exit, after) →
      after.machine.environment.current = after.machine.environment.root ∧
        after.machine.depth = 0 ∧ after.resetScopes = after := by
  intro ctx calls
  have follows := Traced.follows_calls bindings maxDepth bound
  refine ⟨fun e m => Exec.expr_stays bindings maxDepth bound m e,
    fun st m => Exec.stmt_stays bindings maxDepth bound m st,
    fun e m declared shallow => ?_, fun st m declared shallow => ?_,
    fun source exit after ran => ?_⟩
  · have tracks := Traced.expr_tracks follows e (.start m declared)
    exact ⟨tracks.same, tracks.bounded_of_start shallow⟩
  · have tracks := Traced.stmt_tracks follows st (.start m declared)
    exact ⟨tracks.same, tracks.bounded_of_start shallow⟩
  · have rest := Session.atRest_of_run reachable.atRest ran
    refine ⟨rest.current, rest.depth, ?_⟩
    unfold Session.resetScopes
    rw [rest.reset]

/-- Calls that nest too deep, through a block and the first value of a field. -/
theorem evaluation_restores_chain_and_depth_of_overflow :
    let s := Session.new { maxCallDepth := 3 } .unlimited .unlimited
    let source := "fun f(n) { { class A { x = f(n + 1); } } } f(0);"
    (s.run 20 source).map (fun ran => ran.1.map Exit.status) = some (some 70) ∧
      ∀ exit after, s.run 20 source = some (exit, after) →
        after.machine.environment.current = after.machine.environment.root ∧
          after.machine.depth = 0 ∧ after.resetScopes = after :=
  ⟨by decide +kernel,
    (evaluation_restores_chain_and_depth (.new { maxCallDepth := 3 } .unlimited .unlimited)
      Bindings.empty 3 20).2.2.2.2 _⟩

end Lox
