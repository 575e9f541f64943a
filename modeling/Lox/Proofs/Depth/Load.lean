import Lox.Proofs.Depth.Shorter
import Lox.Proofs.Session.Load

set_option autoImplicit false

/-! Sessions that differ in the limit on nested calls, or in what their machines hold. Loading a source looks
at neither, and executing a program looks at the limit at calls only; a run only adds to the output. -/

namespace Lox

/-- An outcome with another state. -/
def Outcome.onState {ε σ α : Type} (change : σ → σ) : EStateM.Result ε σ α → EStateM.Result ε σ α
  | .ok a s => .ok a (change s)
  | .error e s => .error e (change s)

theorem Outcome.state_onState {ε σ α : Type} (change : σ → σ) (result : EStateM.Result ε σ α) :
    Outcome.state (Outcome.onState change result) = change (Outcome.state result) := by
  cases result <;> rfl

/-- The session with another limit on nested calls. -/
def Session.withLimit (s : Session) (limit : Nat) : Session :=
  { s with config := { s.config with maxCallDepth := limit } }

/-- The session with another limit on nested calls and another machine. -/
def Session.amend (s : Session) (limit : Nat → Nat) (change : Machine → Machine) : Session :=
  { s with
    config := { s.config with maxCallDepth := limit s.config.maxCallDepth }
    machine := change s.machine }

/-- A change of the machine that has nothing to do with its output. -/
structure Machine.Quiet (change : Machine → Machine) : Prop where
  output : ∀ m, (change m).output = m.output
  accepts : ∀ m output, change { m with output := output } = { change m with output := output }

theorem Machine.quiet_id : Quiet id :=
  ⟨fun _ => rfl, fun _ _ => rfl⟩

namespace Stage

/-- A stage that looks neither at the limit on nested calls nor at what is changed on the machine, and
only adds to the output. -/
structure Heedless {α : Type} (limit : Nat → Nat) (change : Machine → Machine) (stage : Stage α) :
    Prop where
  same : ∀ s, stage (Session.amend s limit change) = Outcome.onState (·.amend limit change) (stage s)
  adds : ∀ s : Session, s.machine.output.Begins (Outcome.state (stage s)).machine.output

variable {α β : Type} {limit : Nat → Nat} {change : Machine → Machine}

namespace Heedless

theorem bind {stage : Stage α} {second : α → Stage β} (first : Heedless limit change stage)
    (later : ∀ a, Heedless limit change (second a)) : Heedless limit change (stage >>= second) := by
  constructor
  · intro s
    have same := first.same s
    cases result : stage s with
    | ok a middle =>
      rw [result] at same
      rw [Outcome.bind_of_ok result, Outcome.bind_of_ok same]
      exact (later a).same middle
    | error halt last =>
      rw [result] at same
      rw [Outcome.bind_of_error result, Outcome.bind_of_error same]
      rfl
  · intro s
    have begins := first.adds s
    cases result : stage s with
    | ok a middle =>
      rw [result] at begins
      rw [Outcome.bind_of_ok result]
      exact begins.trans ((later a).adds middle)
    | error halt last =>
      rw [result] at begins
      rw [Outcome.bind_of_error result]
      exact begins

theorem get_bind {second : Session → Stage β}
    (blind : ∀ s, second (Session.amend s limit change) = second s)
    (later : ∀ s, Heedless limit change (second s)) : Heedless limit change (get >>= second) := by
  constructor
  · intro s
    change second (s.amend limit change) (s.amend limit change) = _
    rw [blind]
    exact (later s).same s
  · intro s
    exact (later s).adds s

theorem pure (a : α) : Heedless limit change (return a) :=
  ⟨fun _ => rfl, fun _ => Sink.Begins.refl _⟩

theorem modify {update : Session → Session}
    (blind : ∀ s, update (Session.amend s limit change) = (update s).amend limit change)
    (still : ∀ s, (update s).machine = s.machine) : Heedless limit change (modify update) := by
  constructor
  · intro s
    exact congrArg (EStateM.Result.ok ()) (blind s)
  · intro s
    change s.machine.output.Begins (update s).machine.output
    rw [still]
    exact Sink.Begins.refl _

end Heedless

theorem heedless_report (ds : List Diagnostic) : Heedless limit change (report ds) :=
  .modify (fun _ => rfl) fun _ => rfl

theorem heedless_halt : Heedless limit change (halt : Stage α) :=
  ⟨fun _ => rfl, fun _ => Sink.Begins.refl _⟩

theorem heedless_checkpoint : Heedless limit change checkpoint := by
  constructor
  · intro s
    have reporter : (s.amend limit change).reporter = s.reporter := rfl
    unfold checkpoint
    rw [reporter]
    cases s.reporter.checkpoint <;> rfl
  · intro s
    unfold checkpoint
    cases s.reporter.checkpoint <;> exact Sink.Begins.refl _

section

variable (quiet : Machine.Quiet change)
include quiet

theorem heedless_dumpIf (asked : Bool) (text : String) : Heedless limit change (dumpIf asked text) := by
  cases asked with
  | false => exact .pure ()
  | true =>
    change Heedless limit change (dump text)
    constructor
    · intro s
      have output : (s.amend limit change).machine.output = s.machine.output := quiet.output _
      have accepted (output : Sink) :
          { s.amend limit change with
              machine := { (s.amend limit change).machine with output := output } } =
            Session.amend { s with machine := { s.machine with output := output } } limit change :=
        congrArg (fun machine => { s.amend limit change with machine := machine })
          (quiet.accepts s.machine output).symm
      unfold dump
      rw [output]
      dsimp only
      rw [accepted]
      cases s.machine.output.deliveryFailure? text <;> rfl
    · intro s
      unfold dump
      cases s.machine.output.deliveryFailure? text <;> exact Sink.begins_accept _ text

omit quiet in
theorem heedless_scan (source : String) : Heedless limit change (scan source) := by
  refine .get_bind (fun _ => rfl) fun s => ?_
  refine .bind (.modify (fun _ => rfl) fun _ => rfl) fun _ => ?_
  exact (heedless_report _).bind fun _ => .pure _

omit quiet in
theorem heedless_parse (tokens : List Token) : Heedless limit change (parse tokens) := by
  refine .get_bind (fun _ => rfl) fun s => ?_
  refine .bind (.modify (fun _ => rfl) fun _ => rfl) fun _ => ?_
  refine (heedless_report _).bind fun _ => ?_
  split
  · exact heedless_halt
  · exact .pure _

omit quiet in
theorem heedless_resolve (first : NodeId) (program : List Stmt) :
    Heedless limit change (resolve first program) := by
  refine .get_bind (fun _ => rfl) fun s => ?_
  split
  · exact .modify (fun _ => rfl) fun _ => rfl
  · exact .bind (.modify (fun _ => rfl) fun _ => rfl) fun _ => heedless_report _

theorem heedless_load (source : String) : Heedless limit change (load source) := by
  refine .get_bind (fun _ => rfl) fun s => ?_
  refine .bind (.bind (heedless_scan source) fun _ => ?_) fun tokens => ?_
  · exact (heedless_dumpIf quiet _ _).bind fun _ => heedless_checkpoint.bind fun _ => .pure _
  refine .get_bind (fun _ => rfl) fun first => ?_
  refine .bind (.bind (heedless_parse tokens) fun _ => ?_) fun program => ?_
  · exact (heedless_dumpIf quiet _ _).bind fun _ => heedless_checkpoint.bind fun _ => .pure _
  split
  · exact .pure none
  · refine (heedless_resolve _ program).bind fun _ => heedless_checkpoint.bind fun _ => ?_
    split
    · exact .pure none
    · exact .pure _

end

theorem load_withLimit (source : String) (s : Session) (limit : Nat) :
    load source (s.withLimit limit) = Outcome.onState (·.withLimit limit) (load source s) :=
  (heedless_load Machine.quiet_id source : Heedless (fun _ => limit) id _).same s

/-- Loading only adds to the output. -/
theorem load_adds (source : String) (s : Session) :
    s.machine.output.Begins (Outcome.state (load source s)).machine.output :=
  Heedless.adds (heedless_load Machine.quiet_id source : Heedless id id _) s

/-- What is left to do when a program has been executed. -/
def conclude (outcome : EStateM.Result Stop Machine Unit) : Stage Unit := fun s =>
  match outcome with
  | .ok _ machine => checkpoint { s with machine }
  | .error (.error e) machine => (do report [e.diagnostic]; checkpoint) { s with machine }
  | .error .exhausted machine => .error .exhausted { s with machine }

theorem conclude_amend (limit : Nat → Nat) (change : Machine → Machine)
    (outcome : EStateM.Result Stop Machine Unit) (s : Session) :
    conclude (Outcome.onState change outcome) (s.amend limit change) =
      Outcome.onState (·.amend limit change) (conclude outcome s) := by
  cases outcome with
  | ok _ machine => exact heedless_checkpoint.same { s with machine := machine }
  | error stop machine =>
    cases stop with
    | exhausted => rfl
    | error e =>
      have stage : Heedless limit change (do report [e.diagnostic]; checkpoint) :=
        (heedless_report [e.diagnostic]).bind fun _ => heedless_checkpoint
      exact stage.same { s with machine := machine }

theorem conclude_withLimit (outcome : EStateM.Result Stop Machine Unit) (s : Session) (limit : Nat) :
    conclude outcome (s.withLimit limit) =
      Outcome.onState (·.withLimit limit) (conclude outcome s) := by
  have same := conclude_amend (fun _ => limit) id outcome s
  cases outcome <;> exact same

theorem machine_conclude (outcome : EStateM.Result Stop Machine Unit) (s : Session) :
    (Outcome.state (conclude outcome s)).machine = Outcome.state outcome := by
  have checked (s : Session) : (Outcome.state (checkpoint s)).machine = s.machine := by
    unfold checkpoint
    cases s.reporter.checkpoint <;> rfl
  cases outcome with
  | ok _ machine => exact checked _
  | error stop machine =>
    cases stop with
    | exhausted => rfl
    | error e => exact checked (Outcome.state (report [e.diagnostic] { s with machine := machine }))

theorem finish_execute (bound : Nat) (program : List Stmt) (s : Session) :
    finish (execute bound) (some program) s =
      conclude (Exec.program (Exec.context s.bindings s.config.maxCallDepth bound) program
        s.machine) s := by
  change (execute bound program >>= fun _ => checkpoint) s = _
  cases result : Exec.program (Exec.context s.bindings s.config.maxCallDepth bound) program
      s.machine with
  | ok _ machine =>
    have executed : execute bound program s = .ok () { s with machine := machine } := by
      unfold execute
      simp only [result]
    rw [Outcome.bind_of_ok executed]
    rfl
  | error stop machine =>
    cases stop with
    | exhausted =>
      have executed : execute bound program s = .error .exhausted { s with machine := machine } := by
        unfold execute
        simp only [result]
      rw [Outcome.bind_of_error executed]
      rfl
    | error e =>
      have executed : execute bound program s =
          report [e.diagnostic] { s with machine := machine } := by
        unfold execute
        simp only [result]
      exact Outcome.bind_shift executed

end Stage
end Lox
