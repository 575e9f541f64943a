import Lox.Proofs.Grammar.Program
import Lox.Proofs.Lexical.Agreement

set_option autoImplicit false

/-! Whole programs. A program that is accepted, and whose fields have no initializers, ends in the same way
whether its names are looked up by slot in frames or by name in what is in sight. -/

namespace Lox.Lexical

theorem body_lockstep {ctx : Lox.Context} {plain : Context} (matched : Matches ctx plain)
    {w : World} {m : Machine} {n : Memory} (shared : Shared ctx.bindings w m n) {e : Entry}
    (runs : e.Runs ctx.bindings w) {arguments : List Value}
    (backs : ∀ value ∈ arguments, w.Backs ctx.bindings value)
    (arity : e.object.arity = arguments.length) :
    Lockstep ctx.bindings [] w m n (Exec.body ctx e.object arguments)
      (Run.body plain e.closure arguments) (Alike ctx.bindings) := by
  obtain ⟨⟨name, kind, parameters, body⟩, receiver, chain, sight⟩ := e
  obtain ⟨path, role, placed, regular, noInitial⟩ := runs
  have parts := List.forall_mem_append.mp placed.bound
  have coversBody := stmts_covers body (.function role parameters.reverse [] :: path) regular.2
    parts.2
  have split : Sites.slotted (Sites.function role path (.mk name kind parameters body)) =
      parameters.map (·.id) ++
        Sites.slotted (Sites.stmts (.function role parameters.reverse [] :: path) body) := by
    rw [Sites.function, Sites.slotted, List.flatMap_append]
    exact congrArg (· ++ _) (slotted_params role path [] parameters)
  have flow : Lockstep ctx.bindings [] w m n
      (Exec.deeper <| Exec.within chain do
        giveParams ctx.bindings parameters arguments
        Exec.stmts ctx body)
      (Run.deeper do
        let inner ← Run.bindParams sight.enter parameters arguments
        Run.stmts plain inner body)
      (FlowAlike ctx.bindings) := by
    have deep : Shared ctx.bindings w { m with depth := m.depth + 1 }
        { n with depth := n.depth + 1 } := by
      rw [shared.objects.depth]
      exact shared.atDepth (m.depth + 1)
    have locals := shared.locals
    have entered := placed.enter locals fun slot member => by
      rw [split, Bindings.slotsOf_append]
      exact List.mem_append.mpr ((List.mem_append.mp member).imp_right (coversBody slot))
    have inside := entered.move (entered.sees.open (.function role [] [] :: path) rfl
      fun wanted => Path.declaration?_function path wanted role)
    rw [← locals.frames] at inside
    have le := w.le_enter (ctx.bindings.slotsOf (parameters.map (·.id)) ++
      ownSlots ctx.bindings (body.flatMap Stmt.declared))
    have inner := (bindParams_lockstep coversBody parameters arguments [] _ _ _ sight.enter
      ⟨deep.enter chain _, inside⟩ (fun value member => (backs value member).le le) arity).bind
      fun _ onward more after last step there => by
        rw [List.append_nil, ← step.current] at there
        exact stmts_lockstep matched body _ onward more after last rfl ⟨step.shared, there⟩
          regular.2 noInitial
    exact Lockstep.deeper (Lockstep.within chain _ inner locals.frames)
  refine flow.bind fun real plain more after last step alike => ?_
  obtain ⟨same, backsFlow⟩ := alike
  rw [same]
  cases kind <;> cases receiver <;> cases real <;>
    first
      | exact Lockstep.pure step.shared ⟨rfl, backs_instance _⟩
      | exact Lockstep.pure step.shared ⟨rfl, backsFlow _ rfl⟩
      | exact Lockstep.pure step.shared ⟨rfl, backs_nil⟩

theorem call_lockstep (bindings : Bindings) (maxDepth bound : Nat) :
    CallsAgree bindings (Exec.call bindings maxDepth bound) (Run.call maxDepth bound) := by
  induction bound with
  | zero =>
      intro _ _ _ _ _ shared _ _ _
      exact Lockstep.of_error rfl rfl shared.objects.output.symm
  | succ bound ih =>
      intro w m n id arguments shared runs backs arity
      obtain ⟨e, found, eRuns⟩ := runs id rfl
      have objects := shared.functionAt found
      apply Lockstep.get_bind
      rw [objects.1] at arity ⊢
      rw [objects.2]
      have matched : Matches (Exec.context bindings maxDepth bound) (Run.context maxDepth bound) :=
        ⟨rfl, rfl, ih⟩
      exact body_lockstep matched shared eRuns backs arity

theorem shared_new (bindings : Bindings) (output : Sink) :
    Shared bindings ⟨[], [[]], []⟩ (Machine.new output) (Memory.new output) := by
  have frame (id : FrameId) : (Machine.new output).environment.frame id = Table.empty := by
    unfold Environment.frame
    cases id <;> rfl
  refine ⟨⟨rfl, rfl, nofun, fun id slot held => ?_, List.nodup_nil, nofun⟩,
    ⟨rfl, rfl, rfl, fun _ => rfl, fun _ => rfl, rfl, rfl, rfl, rfl, nofun, nofun, nofun⟩, nofun⟩
  rw [frame] at held
  cases held

theorem program_lockstep {bindings : Bindings} {program : List Stmt}
    (recorded : Recorded (Sites.program program) Bindings.empty bindings)
    (regular : Regular.stmts program) (noInitial : Initialized.stmts program = [])
    (maxDepth bound : Nat) (output : Sink) :
    Lockstep bindings [] ⟨[], [[]], []⟩ (Machine.new output) (Memory.new output)
      (Exec.stmts (Exec.context bindings maxDepth bound) program)
      (Run.stmts (Run.context maxDepth bound) .top program) (FlowAlike bindings) := by
  have matched : Matches (Exec.context bindings maxDepth bound) (Run.context maxDepth bound) :=
    ⟨rfl, rfl, call_lockstep bindings maxDepth bound⟩
  have own : ownSlots bindings (program.flatMap Stmt.declared) = [] :=
    ownSlots_of_global program [] rfl regular recorded.bound
  have placed : Placed bindings ⟨[], [[]], []⟩ [] ⟨0, []⟩ .top (Sites.program program)
      (ownSlots bindings (program.flatMap Stmt.declared)) := by
    rw [own]
    refine ⟨recorded.bound, Bindings.nodup_slotsOf ?_, ⟨rfl, ?_, fun _ _ => rfl, nofun⟩, ?_, nofun⟩
    · rw [recorded.slots]
      exact List.Nodup.map (fun _ _ => Option.some.inj) List.nodup_range'
    · intro frame member
      cases member with
      | head => exact Nat.zero_lt_one
      | tail _ impossible => cases impossible
    · intro frame member slot belongs
      cases member with
      | head => cases belongs
      | tail _ impossible => cases impossible
  have runs := stmts_lockstep matched program [] .top _ _ _ rfl ⟨shared_new bindings output, placed⟩
    regular noInitial
  change Lockstep bindings (ownSlots bindings (program.flatMap Stmt.declared)) _ _ _ _ _ _ at runs
  rw [own] at runs
  exact runs

/-- How a run ended, and what it has written. -/
structure Ending where
  stop : Option Stop
  output : Sink

def Ending.of {σ : Type} (output : σ → Sink) : EStateM.Result Stop σ Unit → Ending
  | .ok _ s => ⟨none, output s⟩
  | .error stop s => ⟨some stop, output s⟩

/-- Programs whose statements go in lockstep end alike, since both flush the same output. -/
theorem ending_eq {bindings : Bindings} {own : List Slot} {w : World} {m : Machine} {n : Memory}
    {good : World → Flow → Flow → Prop} {ctx : Lox.Context} {plain : Context} {program : List Stmt}
    (lockstep : Lockstep bindings own w m n (Exec.stmts ctx program)
      (Run.stmts plain .top program) good) :
    Ending.of (·.output) (Exec.program ctx program m) =
      Ending.of (·.output) (Run.program plain program n) := by
  unfold Exec.program Run.program
  rcases lockstep.ends with ⟨flow, other, more, after, last, real, plain, step, -⟩ |
    ⟨stop, after, last, real, plain, same⟩
  · have same := step.shared.objects.output
    simp only [real, plain, Exec.flush, Run.flush, same]
    cases after.output.flushFailure? <;> simp only [Ending.of, same]
  · cases stop with
    | exhausted => simp only [real, plain, Ending.of, same]
    | error e =>
        simp only [real, plain, Exec.flush, Run.flush, same]
        cases last.output.flushFailure? <;> simp only [Ending.of, same]

/-- An accepted program in which no field has an initializer ends with slots as it does with names, with
the same output. -/
theorem program_agrees_with_names (base : Nat) (text : List Char) (firstId : NodeId)
    (accepted : (resolve Bindings.empty
      (Grammar.readText base text firstId).statements).1 = none)
    (noInitial : Initialized.stmts (Grammar.readText base text firstId).statements = [])
    (maxDepth bound : Nat) (output : Sink) :
    let program := (Grammar.readText base text firstId).statements
    let bindings := (resolve Bindings.empty program).2
    Ending.of (·.output)
        (Exec.program (Exec.context bindings maxDepth bound) program (Machine.new output)) =
      Ending.of (·.output)
        (Run.program (Run.context maxDepth bound) program (Memory.new output)) := by
  intro program bindings
  have fit := Grammar.readText_fit base text firstId
  have recorded : Recorded (Sites.program program) Bindings.empty bindings :=
    resolve_recorded fit.numbered.nodup (fun _ _ => Bindings.slot?_empty _) accepted
  exact ending_eq (program_lockstep recorded fit.regular noInitial maxDepth bound output)

/-- A counter that is made by a function and kept by an instance. -/
theorem program_agrees_for_counter :
    let program := (Grammar.readText 0
      "fun make() { var n = 0; fun next() { n = n + 1; return n; } return next; }
       class Box { init(x) { this.x = x; } get() { return this.x; } }
       { var box = Box(make()); box.get()(); print box.get()(); }".toList 0).statements
    let bindings := (resolve Bindings.empty program).2
    Ending.of (·.output)
        (Exec.program (Exec.context bindings 100 50) program (Machine.new .unlimited)) =
      Ending.of (·.output)
        (Run.program (Run.context 100 50) program (Memory.new .unlimited)) :=
  program_agrees_with_names 0 _ 0 (by decide +kernel) (by decide +kernel) 100 50 .unlimited

end Lox.Lexical
