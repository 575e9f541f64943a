import Lox.Proofs.Depth.Agreement
import Lox.Proofs.Halting.Loopless
import Lox.Proofs.Session.Rounds

set_option autoImplicit false

/-! Only loops can run for ever. Where neither the code nor the functions of a machine have a loop, the
limit on nested calls is bound enough for every computation and for every run, and no higher bound makes
a difference. -/

namespace Lox

namespace Exec

variable {α : Type}

/-- With a certain bound a computation ends with a value or an error of the program, on a machine without
loops, and with every higher bound it ends in the same way. -/
structure Terminates (run : Nat → EStateM.Result Stop Machine α) (enough : Nat) : Prop where
  ended : ∀ last, run enough ≠ .error .exhausted last
  same : ∀ bound, enough ≤ bound → run bound = run enough
  loopless : (Outcome.state (run enough)).Loopless

/-- More rounds and calls make a difference only to a computation that runs out of them. -/
theorem narrower_of_bound (bindings : Bindings) (limit : Nat) {bound bound' : Nat}
    (fewer : bound ≤ bound') : Narrower (· = .exhausted)
      (Guarded.context Guarded.frank bindings limit bound)
      (Guarded.context Guarded.frank bindings limit bound') := by
  have sameLimit (less : limit < limit) (token : Token) :
      Stop.error (.faulted .tooDeep token) = .exhausted := absurd less (Nat.lt_irrefl limit)
  exact ⟨rfl, Nat.le_refl limit, sameLimit, fewer, fun _ => rfl,
    Guarded.call_shorter bindings (Nat.le_refl limit) sameLimit fewer fun _ => rfl⟩

variable (bindings : Bindings) (limit : Nat) {m : Machine}

/-- A computation that settles as soon as there is room terminates. -/
theorem terminates_of_settles (run : Nat → Exec α) (loopless : m.Loopless)
    (settles : Settles limit (limit - m.depth) (run (limit - m.depth)))
    (shorter : ∀ bound, limit - m.depth ≤ bound →
      Shorter (· = .exhausted) (run (limit - m.depth)) (run bound)) :
    Terminates (fun bound => run bound m) (limit - m.depth) := by
  have settled := settles m loopless (by omega)
  refine ⟨settled.ended, fun bound fewer => ?_, settled.loopless⟩
  rcases ((shorter bound fewer).shortens m).same_or_short with same | ⟨stop, last, cut, rfl, -⟩
  · exact same.symm
  · exact absurd cut (settled.ended last)

theorem expr_terminates (loopless : m.Loopless) {e : Expr} (code : Loopless.expr e = true) :
    Terminates (fun bound => expr (context bindings limit bound) e m) (limit - m.depth) := by
  refine terminates_of_settles limit (fun bound => expr (context bindings limit bound) e)
    loopless (expr_settles (enters_context bindings limit _) code) fun bound fewer => ?_
  have runs := (Guarded.parallel_shorter (narrower_of_bound bindings limit fewer)).expr
    (.refl Likeness.same_reflexive e)
  rw [Guarded.expr_frank, Guarded.expr_frank, Guarded.context_frank, Guarded.context_frank] at runs
  exact runs

theorem stmt_terminates (loopless : m.Loopless) {s : Stmt} (code : Loopless.stmt s = true) :
    Terminates (fun bound => stmt (context bindings limit bound) s m) (limit - m.depth) := by
  refine terminates_of_settles limit (fun bound => stmt (context bindings limit bound) s)
    loopless (stmt_settles (enters_context bindings limit _) code) fun bound fewer => ?_
  have runs := (Guarded.parallel_shorter (narrower_of_bound bindings limit fewer)).stmt
    (.refl Likeness.same_reflexive s)
  rw [Guarded.stmt_frank, Guarded.stmt_frank, Guarded.context_frank, Guarded.context_frank] at runs
  exact runs

theorem stmts_terminates (loopless : m.Loopless) {ss : List Stmt} (code : Loopless.stmts ss = true) :
    Terminates (fun bound => stmts (context bindings limit bound) ss m) (limit - m.depth) := by
  refine terminates_of_settles limit (fun bound => stmts (context bindings limit bound) ss)
    loopless (stmts_settles (enters_context bindings limit _) code) fun bound fewer => ?_
  have runs := (Guarded.parallel_shorter (narrower_of_bound bindings limit fewer)).stmts
    (.refl Likeness.same_reflexive ss)
  rw [Guarded.stmts_frank, Guarded.stmts_frank, Guarded.context_frank, Guarded.context_frank] at runs
  exact runs

/-- To flush the output takes no rounds and no calls. -/
theorem program_ended {ctx : Context} {ss : List Stmt}
    (ended : ∀ last, stmts ctx ss m ≠ .error .exhausted last) (last : Machine) :
    program ctx ss m ≠ .error .exhausted last := by
  have flushes (m last : Machine) : flush m ≠ .error .exhausted last := by
    unfold flush
    cases m.output.flushFailure? <;> nofun
  unfold program
  cases ran : stmts ctx ss m with
  | ok flow middle => exact flushes middle last
  | error stop middle =>
    cases stop with
    | exhausted => exact absurd ran (ended middle)
    | error e =>
      dsimp only
      cases flushed : flush middle with
      | ok done after => nofun
      | error stop after =>
        intro same
        cases same
        exact flushes middle last flushed

theorem program_terminates (loopless : m.Loopless) {ss : List Stmt}
    (code : Loopless.stmts ss = true) :
    Terminates (fun bound => program (context bindings limit bound) ss m) (limit - m.depth) := by
  obtain ⟨ended, same, still⟩ := stmts_terminates bindings limit loopless code
  refine ⟨program_ended ended, fun bound fewer => program_congr (same bound fewer), ?_⟩
  rw [machine_program]
  exact still

end Exec

namespace Stage

/-! ### Stages before execution -/

/-- A stage whose end, if it ends the run, is one of what has been reported. -/
def Prompt {α : Type} (stage : Stage α) : Prop :=
  ∀ s last, stage s ≠ .error .exhausted last

variable {α β : Type}

theorem Prompt.bind {stage : Stage α} {second : α → Stage β} (first : Prompt stage)
    (later : ∀ a, Prompt (second a)) : Prompt (stage >>= second) := by
  intro s last
  cases result : stage s with
  | ok a middle =>
    rw [Outcome.bind_of_ok result]
    exact later a middle last
  | error halt middle =>
    rw [Outcome.bind_of_error result]
    intro same
    cases same
    exact first s last result

theorem Prompt.get_bind {second : Session → Stage β} (later : ∀ s, Prompt (second s)) :
    Prompt (get >>= second) :=
  fun s => later s s

theorem Prompt.pure (a : α) : Prompt (return a) :=
  fun _ _ => nofun

theorem Prompt.modify (change : Session → Session) : Prompt (modify change) :=
  fun _ _ => nofun

theorem prompt_halt : Prompt (halt : Stage α) :=
  fun _ _ => nofun

theorem prompt_checkpoint : Prompt checkpoint := by
  intro s last
  unfold checkpoint
  cases s.reporter.checkpoint <;> nofun

theorem prompt_dumpIf (asked : Bool) (text : String) : Prompt (dumpIf asked text) := by
  cases asked with
  | false => exact .pure ()
  | true =>
    intro s last
    change dump text s ≠ _
    unfold dump
    cases s.machine.output.deliveryFailure? text <;> nofun

theorem prompt_loadTokens (config : Config) (source : String) :
    Prompt (loadTokens config source) := by
  refine .bind (.get_bind fun s => ?_) fun tokens => ?_
  · exact (Prompt.modify _).bind fun _ => (Prompt.modify _).bind fun _ => .pure _
  · exact (prompt_dumpIf _ _).bind fun _ => prompt_checkpoint.bind fun _ => .pure tokens

theorem prompt_loadProgram (config : Config) (tokens : List Token) :
    Prompt (loadProgram config tokens) := by
  refine .bind (.get_bind fun s => ?_) fun program => ?_
  · refine (Prompt.modify _).bind fun _ => (Prompt.modify _).bind fun _ => ?_
    split
    · exact prompt_halt
    · exact .pure _
  · exact (prompt_dumpIf _ _).bind fun _ => prompt_checkpoint.bind fun _ => .pure program

theorem prompt_resolve (first : NodeId) (program : List Stmt) : Prompt (resolve first program) := by
  refine .get_bind fun s => ?_
  split
  · exact .modify _
  · exact (Prompt.modify _).bind fun _ => .modify _

/-- Loading a source takes no rounds and no calls. -/
theorem prompt_load (source : String) : Prompt (load source) := by
  refine .get_bind fun s => (prompt_loadTokens s.config source).bind fun tokens => ?_
  refine .get_bind fun t => (prompt_loadProgram s.config tokens).bind fun program => ?_
  split
  · exact .pure none
  · refine (prompt_resolve _ program).bind fun _ => prompt_checkpoint.bind fun _ => ?_
    split <;> exact .pure _

/-- Loading a source leaves the limit on nested calls as it is. -/
theorem limit_of_load (source : String) (s : Session) :
    (Outcome.state (load source s)).config.maxCallDepth = s.config.maxCallDepth := by
  have same : load source s = Outcome.onState (·.withLimit s.config.maxCallDepth) (load source s) :=
    load_withLimit source s s.config.maxCallDepth
  rw [same, Outcome.state_onState]
  rfl

theorem conclude_ended {outcome : EStateM.Result Stop Machine Unit}
    (ended : ∀ last, outcome ≠ .error .exhausted last) : Prompt (conclude outcome) := by
  intro s last
  cases outcome with
  | ok _ machine => exact prompt_checkpoint _ last
  | error stop machine =>
    cases stop with
    | exhausted => exact absurd rfl (ended machine)
    | error e => exact (Prompt.modify _).bind (fun _ => prompt_checkpoint) _ last

end Stage

namespace Session

variable {s : Session} {source : String}

theorem ofStage_isSome {result : EStateM.Result Halt Session Unit}
    (ended : ∀ last, result ≠ .error .exhausted last) :
    ∃ exit after, ofStage result = some (exit, after) ∧ Outcome.state result = after := by
  cases result with
  | ok _ after => exact ⟨none, after, rfl, rfl⟩
  | error halt after =>
    cases halt with
    | exit exit => exact ⟨some exit, after, rfl, rfl⟩
    | exhausted => exact absurd rfl (ended after)

theorem Wrote.loopless {after : Session} (wrote : s.Wrote after) (loopless : s.machine.Loopless) :
    after.machine.Loopless := by
  obtain ⟨output, same⟩ := wrote
  rw [same]
  exact loopless

/-- One outcome of a run, with every bound from a certain one on. -/
structure Answers (s : Session) (source : String) (enough : Nat)
    (outcome : EStateM.Result Halt Session Unit) : Prop where
  ended : ∀ last, outcome ≠ .error .exhausted last
  same : ∀ bound, enough ≤ bound → Stage.run bound source s = outcome
  loopless : (Outcome.state outcome).machine.Loopless

theorem answers_of_program {program : List Stmt} {loaded : Session}
    (result : Stage.load source s = .ok (some program) loaded) (loopless : s.machine.Loopless)
    (code : Loopless.stmts program = true) :
    ∃ outcome, s.Answers source (s.config.maxCallDepth - s.machine.depth) outcome := by
  have wrote := Stage.load_writes (s := s) source
  have limit := Stage.limit_of_load source s
  unfold Stage.Writes Stage.Ends at wrote
  rw [result] at wrote limit
  have still := wrote.loopless loopless
  obtain ⟨output, machine⟩ := wrote
  have depth : loaded.machine.depth = s.machine.depth := by rw [machine]
  have terminates := Exec.program_terminates loaded.bindings loaded.config.maxCallDepth still code
  have enough : loaded.config.maxCallDepth = s.config.maxCallDepth := limit
  rw [depth, enough] at terminates
  refine ⟨_, Stage.conclude_ended terminates.ended loaded, fun bound fewer => ?_, ?_⟩
  · rw [Stage.run_eq, Outcome.bind_of_ok result, Stage.finish_execute, enough]
    exact congrArg (Stage.conclude · loaded) (terminates.same bound fewer)
  · rw [Stage.machine_conclude]
    exact terminates.loopless

/-- A run whose program has no loops ends, in the same way with every bound that reaches the limit on
nested calls. -/
theorem run_terminates (loopless : s.machine.Loopless)
    (code : ∀ program loaded, Stage.load source s = .ok (some program) loaded →
      Loopless.stmts program = true) :
    ∃ exit after, after.machine.Loopless ∧
      ∀ bound, s.config.maxCallDepth - s.machine.depth ≤ bound →
        s.run bound source = some (exit, after) := by
  have wrote := Stage.load_writes (s := s) source
  have prompt := Stage.prompt_load source s
  unfold Stage.Writes Stage.Ends at wrote
  obtain ⟨outcome, ended, same, still⟩ : ∃ outcome,
      s.Answers source (s.config.maxCallDepth - s.machine.depth) outcome := by
    cases result : Stage.load source s with
    | error halt after =>
      rw [result] at wrote prompt
      refine ⟨.error halt after, fun last same => prompt last (by cases same; rfl), fun bound _ => ?_,
        wrote.loopless loopless⟩
      rw [Stage.run_eq, Outcome.bind_of_error result]
    | ok found loaded =>
      cases found with
      | none =>
        rw [result] at wrote
        have idle (bound : Nat) : Stage.run bound source s = .ok () loaded := by
          rw [Stage.run_eq, Outcome.bind_of_ok result]
          unfold Stage.finish
          rfl
        refine ⟨.ok () loaded, fun _ same => ?_, fun bound _ => idle bound, wrote.loopless loopless⟩
        cases same
      | some program => exact answers_of_program result loopless (code program loaded result)
  obtain ⟨exit, after, answer, last⟩ := ofStage_isSome ended
  refine ⟨exit, after, last ▸ still, fun bound fewer => ?_⟩
  rw [run_eq_ofStage, same bound fewer]
  exact answer

end Session

/-- Only loops can run for ever. On a machine without loops, every expression, statement and program without
loops ends with a value or an error as soon as the bound reaches the number of calls that the limit leaves
open, whatever functions, methods, initializers and closures call each other. So does every run of a source
whose program, if one is accepted, has no loops; and then the machine is one without loops again. -/
theorem only_loops_run_for_ever (bindings : Bindings) (limit : Nat) (m : Machine)
    (loopless : m.Loopless) :
    (∀ e, Loopless.expr e = true → Exec.Terminates
      (fun bound => Exec.expr (Exec.context bindings limit bound) e m) (limit - m.depth)) ∧
    (∀ st, Loopless.stmt st = true → Exec.Terminates
      (fun bound => Exec.stmt (Exec.context bindings limit bound) st m) (limit - m.depth)) ∧
    (∀ program, Loopless.stmts program = true → Exec.Terminates
      (fun bound => Exec.program (Exec.context bindings limit bound) program m)
      (limit - m.depth)) ∧
    ∀ (s : Session) (source : String), s.machine = m →
      (∀ program loaded, Stage.load source s = .ok (some program) loaded →
        Loopless.stmts program = true) →
      ∃ exit after, after.machine.Loopless ∧
        ∀ bound, s.config.maxCallDepth - m.depth ≤ bound →
          s.run bound source = some (exit, after) :=
  ⟨fun _ => Exec.expr_terminates bindings limit loopless,
    fun _ => Exec.stmt_terminates bindings limit loopless,
    fun _ => Exec.program_terminates bindings limit loopless,
    fun s source same code => by
      subst same
      exact s.run_terminates loopless code⟩

/-- A class whose instances make instances in their initializer, without end. -/
theorem only_loops_run_for_ever_of_initializers :
    let s := Session.new { maxCallDepth := 3 } .unlimited .unlimited
    let source := "class A { init(n) { print n; this.next = A(n + 1); } } A(0);"
    s.machine.Loopless ∧
    (∀ program loaded, Stage.load source s = .ok (some program) loaded →
      Loopless.stmts program = true) ∧
    (s.run 3 source).map (fun ran => ran.1.map Exit.status) = some (some 70) ∧
    ∃ exit after, after.machine.Loopless ∧
      ∀ bound, 3 ≤ bound → s.run bound source = some (exit, after) := by
  intro s source
  have code : ∀ program loaded, Stage.load source s = .ok (some program) loaded →
      Loopless.stmts program = true := by
    have loopless : Loopless.stmts (s.round source).program = true := by decide +kernel
    have accepts := Stage.load_accepts (s := s) source
    intro program loaded result
    unfold Stage.Ends at accepts
    rw [result] at accepts
    rw [← (accepts program rfl).1]
    exact loopless
  exact ⟨Machine.loopless_new _, code, by decide +kernel,
    (only_loops_run_for_ever Bindings.empty 3 s.machine (Machine.loopless_new _)).2.2.2 s source rfl
      code⟩

end Lox
