import Lox.Proofs.Depth.Load
import Lox.Proofs.Twin.History

set_option autoImplicit false

/-! The limit on nested calls only cuts sessions short. A history that never exceeds its limit goes the same
way under every higher one; one that does has written, until then, the beginning of what the same history
writes under the higher limit. -/

namespace Lox

namespace Exec

/-- Flushing the output does not change the machine. -/
theorem machine_program (ctx : Context) (program : List Stmt) (m : Machine) :
    Outcome.state (Exec.program ctx program m) = Outcome.state (stmts ctx program m) := by
  unfold Exec.program
  cases stmts ctx program m with
  | ok flow last => exact flush_state last
  | error stop last =>
    cases stop with
    | exhausted => rfl
    | error e =>
      have flushed := flush_state last
      dsimp only
      generalize flush last = result at flushed ⊢
      cases result <;> exact flushed

theorem program_congr {ctx ctx' : Context} {program : List Stmt} {m : Machine}
    (same : stmts ctx program m = stmts ctx' program m) :
    Exec.program ctx program m = Exec.program ctx' program m := by
  unfold Exec.program
  rw [same]

theorem adds_stmts (bindings : Bindings) (limit bound : Nat) (program : List Stmt) :
    Adds (stmts (context bindings limit bound) program) := by
  have runs : Shorter (fun _ => False) (stmts (context bindings limit bound) program)
      (stmts (context bindings limit bound) program) :=
    stmts_shorter bindings (Nat.le_refl limit) (fun less => absurd less (Nat.lt_irrefl limit))
      (Nat.le_refl bound) (fun less => absurd less (Nat.lt_irrefl bound)) program
  exact runs.adds

/-- The machine on which a computation stops because calls nest too deeply, if it does. -/
def overflow? {α : Type} : EStateM.Result Stop Machine α → Option Machine
  | .error (.error (.faulted .tooDeep _)) m => some m
  | _ => none

theorem state_of_overflow? {α : Type} {result : EStateM.Result Stop Machine α} {m : Machine}
    (deep : overflow? result = some m) : Outcome.state result = m := by
  unfold overflow? at deep
  split at deep
  · cases deep
    rfl
  · cases deep

end Exec

/-- The same source, with no lower bound. -/
def Entry.NoShorter (one two : Entry) : Prop :=
  one.source = two.source ∧ one.bound ≤ two.bound

namespace Session

/-- The machine on which a run exceeds the limit on nested calls, if it does. -/
def overflow? (s : Session) (bound : Nat) (source : String) : Option Machine :=
  match Stage.load source s with
  | .ok (some program) loaded =>
    Exec.overflow? (Exec.stmts (Exec.context loaded.bindings loaded.config.maxCallDepth bound)
      program loaded.machine)
  | _ => none

/-- The machine on which one of several runs exceeds the limit on nested calls for the first time. -/
def firstOverflow? : Session → List Entry → Option Machine
  | _, [] => none
  | s, entry :: rest =>
    match s.overflow? entry.bound entry.source, s.run entry.bound entry.source with
    | some m, _ => some m
    | none, some (_, after) => after.firstOverflow? rest
    | none, none => none

/-- The session that several runs leave. A run that exceeds its bound is the last. -/
def leave : Session → List Entry → Session
  | s, [] => s
  | s, entry :: rest =>
    match s.run entry.bound entry.source with
    | some (_, after) => after.leave rest
    | none => Outcome.state (Stage.run entry.bound entry.source s)

/-- How a run ends, and the session that it leaves. -/
def ofStage : EStateM.Result Halt Session Unit → Option (Option Exit × Session)
  | .ok _ after => some (none, after)
  | .error (.exit exit) after => some (some exit, after)
  | .error .exhausted _ => none

variable {s : Session} {limit limit' bound bound' : Nat} {source : String}

theorem run_eq_ofStage (s : Session) (bound : Nat) (source : String) :
    s.run bound source = ofStage (Stage.run bound source s) := by
  unfold run ofStage
  cases Stage.run bound source s with
  | ok _ after => rfl
  | error halt after => cases halt <;> rfl

/-- A run that does not come to execute a program. -/
def Idle (s : Session) (source : String) : Prop :=
  ∀ program loaded, Stage.load source s ≠ .ok (some program) loaded

theorem Idle.run_withLimit (idle : s.Idle source) (limit bound : Nat) :
    Stage.run bound source (s.withLimit limit) =
      Outcome.onState (·.withLimit limit) (Stage.run 0 source s) := by
  have same := Stage.load_withLimit source s limit
  rw [Stage.run_eq, Stage.run_eq]
  cases result : Stage.load source s with
  | error halt after =>
    rw [result] at same
    rw [Outcome.bind_of_error same, Outcome.bind_of_error result]
    rfl
  | ok found after =>
    rw [result] at same
    rw [Outcome.bind_of_ok same, Outcome.bind_of_ok result]
    cases found with
    | none => rfl
    | some program => exact absurd result (idle program after)

theorem run_withLimit_of_program {program : List Stmt} {loaded : Session}
    (result : Stage.load source s = .ok (some program) loaded) (limit bound : Nat) :
    Stage.run bound source (s.withLimit limit) =
      Outcome.onState (·.withLimit limit) (Stage.conclude
        (Exec.program (Exec.context loaded.bindings limit bound) program loaded.machine)
        loaded) := by
  have same := Stage.load_withLimit source s limit
  rw [result] at same
  rw [Stage.run_eq, Outcome.bind_of_ok same]
  exact (Stage.finish_execute bound program (loaded.withLimit limit)).trans
    (Stage.conclude_withLimit _ loaded limit)

theorem idle_or_program (s : Session) (source : String) : s.Idle source ∨
    ∃ program loaded, Stage.load source s = .ok (some program) loaded := by
  by_cases runs : ∃ program loaded, Stage.load source s = .ok (some program) loaded
  · exact .inr runs
  · exact .inl fun program loaded same => runs ⟨program, loaded, same⟩

/-- A run ends on the machine on which the statements of its program end. -/
theorem machine_of_program {program : List Stmt} {loaded : Session}
    (result : Stage.load source s = .ok (some program) loaded) (limit bound : Nat) :
    (Outcome.state (Stage.run bound source (s.withLimit limit))).machine = Outcome.state
      (Exec.stmts (Exec.context loaded.bindings limit bound) program loaded.machine) := by
  rw [run_withLimit_of_program result, Outcome.state_onState]
  exact (Stage.machine_conclude _ loaded).trans (Exec.machine_program _ program loaded.machine)

theorem overflow?_of_program {program : List Stmt} {loaded : Session}
    (result : Stage.load source s = .ok (some program) loaded) (limit bound : Nat) :
    (s.withLimit limit).overflow? bound source = Exec.overflow?
      (Exec.stmts (Exec.context loaded.bindings limit bound) program loaded.machine) := by
  have same := Stage.load_withLimit source s limit
  rw [result] at same
  unfold overflow?
  rw [same]
  rfl

theorem Idle.overflow? (idle : s.Idle source) (limit bound : Nat) :
    (s.withLimit limit).overflow? bound source = none := by
  have same := Stage.load_withLimit source s limit
  unfold Session.overflow?
  cases result : Stage.load source s with
  | error halt after =>
    rw [result] at same
    rw [same]
    rfl
  | ok found after =>
    rw [result] at same
    rw [same]
    cases found with
    | none => rfl
    | some program => exact absurd result (idle program after)

/-! ### One run -/

/-- Why a run with less room may be cut short: its calls nest too deeply, or it exceeds a lower bound. -/
inductive Cut (bound bound' : Nat) : Stop → Prop
  | deep (token : Token) : Cut bound bound' (.error (.faulted .tooDeep token))
  | exhausted (fewer : bound < bound') : Cut bound bound' .exhausted

theorem stmts_cut (bindings : Bindings) (lower : limit ≤ limit') (fewer : bound ≤ bound')
    (program : List Stmt) :
    Exec.Shorter (Cut bound bound') (Exec.stmts (Exec.context bindings limit bound) program)
      (Exec.stmts (Exec.context bindings limit' bound') program) :=
  Exec.stmts_shorter bindings lower (fun _ => .deep) fewer .exhausted program

/-- A run that neither nests calls too deeply nor exceeds a lower bound is the same with more room. -/
theorem run_same (lower : limit ≤ limit') (fewer : bound ≤ bound')
    (calm : (s.withLimit limit).overflow? bound source = none)
    (patient : bound < bound' → (s.withLimit limit).run bound source ≠ none) :
    ∃ result, Stage.run bound source (s.withLimit limit) =
        Outcome.onState (·.withLimit limit) result ∧
      Stage.run bound' source (s.withLimit limit') =
        Outcome.onState (·.withLimit limit') result := by
  rcases idle_or_program s source with idle | ⟨program, loaded, result⟩
  · exact ⟨_, idle.run_withLimit limit bound, idle.run_withLimit limit' bound'⟩
  have ran := run_withLimit_of_program result limit bound
  have ran' := run_withLimit_of_program result limit' bound'
  have shorter := stmts_cut loaded.bindings lower fewer program
  refine ⟨_, ran, ?_⟩
  rcases (shorter.shortens loaded.machine).same_or_short with same | ⟨stop, m, cutShort, isCut, -⟩
  · rw [ran', Exec.program_congr same]
  · rw [overflow?_of_program result, cutShort] at calm
    cases isCut with
    | deep token => cases calm
    | exhausted fewer =>
      have ended : (s.withLimit limit).run bound source = none := by
        rw [run_eq_ofStage, ran]
        unfold Exec.program
        rw [cutShort]
        rfl
      exact absurd ended (patient fewer)

/-- Until a run exceeds the limit, it has written the beginning of what it writes with more room. -/
theorem begins_of_overflow (lower : limit ≤ limit') (fewer : bound ≤ bound') {m : Machine}
    (deep : (s.withLimit limit).overflow? bound source = some m) :
    m.output.Begins (Outcome.state (Stage.run bound' source (s.withLimit limit'))).machine.output := by
  rcases idle_or_program s source with idle | ⟨program, loaded, result⟩
  · rw [idle.overflow?] at deep
    cases deep
  rw [overflow?_of_program result] at deep
  rw [machine_of_program result]
  have shorter := stmts_cut loaded.bindings lower fewer program
  rcases (shorter.shortens loaded.machine).same_or_short with same | ⟨stop, last, cutShort, -, begins⟩
  · rw [← same, Exec.state_of_overflow? deep]
    exact Sink.Begins.refl _
  · have here := Exec.state_of_overflow? deep
    rw [cutShort] at here
    cases here
    exact begins

/-- A run only adds to the output. -/
theorem run_begins (s : Session) (bound : Nat) (source : String) :
    s.machine.output.Begins (Outcome.state (Stage.run bound source s)).machine.output := by
  have loads := Stage.load_adds source s
  rw [Stage.run_eq]
  cases result : Stage.load source s with
  | error halt loaded =>
    rw [result] at loads
    rw [Outcome.bind_of_error result]
    exact loads
  | ok found loaded =>
    rw [result] at loads
    rw [Outcome.bind_of_ok result]
    cases found with
    | none => exact loads
    | some program =>
      rw [Stage.finish_execute, Stage.machine_conclude, Exec.machine_program]
      exact loads.trans (Exec.adds_stmts _ _ _ program loaded.machine)

theorem begins_leave (s : Session) (history : List Entry) :
    s.machine.output.Begins (s.leave history).machine.output := by
  induction history generalizing s with
  | nil => exact Sink.Begins.refl _
  | cons entry rest ih =>
    have begins := run_begins s entry.bound entry.source
    unfold leave
    rw [run_eq_ofStage]
    cases result : Stage.run entry.bound entry.source s with
    | ok _ after =>
      rw [result] at begins
      exact begins.trans (ih after)
    | error halt after =>
      rw [result] at begins
      cases halt with
      | exit exit => exact begins.trans (ih after)
      | exhausted => exact begins

/-- What a run has written is the beginning of what it and further runs write. -/
theorem begins_leave_cons (s : Session) (entry : Entry) (rest : List Entry) :
    (Outcome.state (Stage.run entry.bound entry.source s)).machine.output.Begins
      (s.leave (entry :: rest)).machine.output := by
  unfold leave
  rw [run_eq_ofStage]
  cases Stage.run entry.bound entry.source s with
  | ok _ after => exact begins_leave after rest
  | error halt after =>
    cases halt with
    | exit exit => exact begins_leave after rest
    | exhausted => exact Sink.Begins.refl _

/-! ### Histories -/

/-- How runs end that are the same under different limits. -/
theorem run_of_onState {result : EStateM.Result Halt Session Unit}
    (ran : Stage.run bound source (s.withLimit limit) = Outcome.onState (·.withLimit limit) result) :
    (s.withLimit limit).run bound source =
      (ofStage result).map fun ended => (ended.1, ended.2.withLimit limit) := by
  rw [run_eq_ofStage, ran]
  cases result with
  | ok _ after => rfl
  | error halt after => cases halt <;> rfl

theorem history_same (lower : limit ≤ limit') (history : List Entry) (s : Session)
    (calm : (s.withLimit limit).firstOverflow? history = none) :
    (s.withLimit limit').answers history = (s.withLimit limit).answers history ∧
      (s.withLimit limit').leave history =
        ((s.withLimit limit).leave history).withLimit limit' := by
  induction history generalizing s with
  | nil => exact ⟨rfl, rfl⟩
  | cons entry rest ih =>
    obtain ⟨common, bound, source⟩ := entry
    unfold firstOverflow? at calm
    have calmHere : (s.withLimit limit).overflow? bound source = none := by
      cases deep : (s.withLimit limit).overflow? bound source with
      | none => rfl
      | some m =>
        simp only [deep] at calm
        cases calm
    obtain ⟨result, ran, ran'⟩ := run_same lower (Nat.le_refl bound) calmHere fun less =>
      absurd less (Nat.lt_irrefl bound)
    have ended := run_of_onState ran
    have ended' := run_of_onState ran'
    cases outcome : ofStage result with
    | none =>
      rw [outcome] at ended ended'
      rw [answers_of_exhausted common rest ended, answers_of_exhausted common rest ended']
      refine ⟨rfl, ?_⟩
      unfold leave
      rw [ended, ended', ran, ran', Outcome.state_onState, Outcome.state_onState]
      rfl
    | some found =>
      obtain ⟨exit, after⟩ := found
      rw [outcome] at ended ended'
      simp only [calmHere, ended] at calm
      obtain ⟨answers, leaves⟩ := ih after calm
      rw [answers_of_run common rest ended, answers_of_run common rest ended']
      constructor
      · rw [answers]
        rfl
      · unfold leave
        rw [ended, ended']
        exact leaves

theorem history_begins (lower : limit ≤ limit') {history history' : List Entry}
    (longer : List.Forall₂ Entry.NoShorter history history') (s : Session) {m : Machine}
    (deep : (s.withLimit limit).firstOverflow? history = some m) :
    m.output.Begins ((s.withLimit limit').leave history').machine.output := by
  induction longer generalizing s with
  | nil => cases deep
  | @cons entry entry' rest rest' head tail ih =>
    obtain ⟨same, fewer⟩ := head
    unfold firstOverflow? at deep
    cases here : (s.withLimit limit).overflow? entry.bound entry.source with
    | some last =>
      simp only [here, Option.some.injEq] at deep
      subst deep
      rw [same] at here
      exact (begins_of_overflow lower fewer here).trans (begins_leave_cons _ entry' rest')
    | none =>
      cases ran : (s.withLimit limit).run entry.bound entry.source with
      | none =>
        simp only [here, ran] at deep
        cases deep
      | some found =>
        obtain ⟨exit, last⟩ := found
        simp only [here, ran] at deep
        have answered : (s.withLimit limit).run entry.bound entry.source ≠ none := by
          rw [ran]
          exact Option.some_ne_none _
        obtain ⟨result, one, two⟩ := run_same lower fewer here fun _ => answered
        have ended := run_of_onState one
        have ended' := run_of_onState two
        rw [ran] at ended
        cases outcome : ofStage result with
        | none =>
          rw [outcome] at ended
          cases ended
        | some found =>
          obtain ⟨_, after⟩ := found
          rw [outcome] at ended ended'
          cases ended
          rw [same] at ended'
          unfold leave
          rw [ended']
          exact ih after deep

end Session

/-- The limit on nested calls only cuts runs short. If no run of a history exceeds it, the history goes on
under a higher limit step by step as before: the same exits, the same output and the same diagnostics. If
one does, what has been written until then is the beginning of what the history writes under the higher
limit, where runs may take as long as they need. -/
theorem lower_limit_only_cuts (s : Session) {limit limit' : Nat} (lower : limit ≤ limit')
    (history : List Entry) :
    ((s.withLimit limit).firstOverflow? history = none →
      (s.withLimit limit').answers history = (s.withLimit limit).answers history ∧
        (s.withLimit limit').leave history =
          ((s.withLimit limit).leave history).withLimit limit') ∧
    ∀ m, (s.withLimit limit).firstOverflow? history = some m →
      ∀ history', List.Forall₂ Entry.NoShorter history history' →
        m.output.Begins ((s.withLimit limit').leave history').machine.output :=
  ⟨Session.history_same lower history s, fun _ deep _ longer =>
    Session.history_begins lower longer s deep⟩

/-- A function that calls itself once, in a session that allows for one call and in one that allows for
two. -/
theorem lower_limit_only_cuts_recursion :
    let s := Session.new {} .unlimited .unlimited
    let once : List Entry :=
      [⟨true, 8, "fun f(again) { print again; if (again) f(false); }"⟩, ⟨true, 8, "f(false);"⟩]
    let twice : List Entry :=
      [⟨true, 8, "fun f(again) { print again; if (again) f(false); }"⟩, ⟨true, 8, "f(true);"⟩]
    1 ≤ 2 ∧ (s.withLimit 1).firstOverflow? once = none ∧
      (s.withLimit 2).answers once = (s.withLimit 1).answers once ∧
      ((s.withLimit 1).firstOverflow? twice).isSome = true ∧
      ∀ m, (s.withLimit 1).firstOverflow? twice = some m →
        m.output.Begins ((s.withLimit 2).leave twice).machine.output := by
  intro s once twice
  have lower : 1 ≤ 2 := by decide
  have calm : (s.withLimit 1).firstOverflow? once = none := by
    rw [← Option.isNone_iff_eq_none]
    decide +kernel
  have deep : ((s.withLimit 1).firstOverflow? twice).isSome = true := by decide +kernel
  have same (entry : Entry) : entry.NoShorter entry := ⟨rfl, Nat.le_refl _⟩
  exact ⟨lower, calm, ((lower_limit_only_cuts s lower once).1 calm).1, deep, fun m isDeep =>
    (lower_limit_only_cuts s lower twice).2 m isDeep twice
      (List.forall₂_same.mpr fun entry _ => same entry)⟩

end Lox
