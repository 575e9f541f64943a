import Lox.Proofs.Session.Journal

set_option autoImplicit false

/-! How a run ends. A run fails if and only if it has reported something, and its exit counts what it has
reported. A program is executed only if nothing has been reported before and the run is not meant to
stop earlier; until then nothing happens to the machine but that listings are written. -/

namespace Lox

namespace Reporter

variable (reporter : Reporter) (d : Diagnostic) (ds more : List Diagnostic)

theorem reportAll_append :
    reporter.reportAll (ds ++ more) = (reporter.reportAll ds).reportAll more :=
  List.foldl_append

theorem errors_reportAll : (reporter.reportAll ds).errors = reporter.errors + ds.length := by
  induction ds generalizing reporter with
  | nil => rfl
  | cons d rest ih =>
      change ((reporter.report d).reportAll rest).errors = _
      rw [ih]
      simp only [report, List.length_cons]
      omega

theorem runtimeFailure_reportAll : (reporter.reportAll ds).runtimeFailure =
    (reporter.runtimeFailure || ds.any Diagnostic.isRuntime) := by
  induction ds generalizing reporter with
  | nil => simp [reportAll]
  | cons d rest ih =>
      change ((reporter.report d).reportAll rest).runtimeFailure = _
      rw [ih, List.any_cons]
      simp only [report, Bool.or_assoc]

theorem sources_reportAll : (reporter.reportAll ds).sources = reporter.sources := by
  induction ds generalizing reporter with
  | nil => rfl
  | cons d rest ih => exact ih (reporter.report d)

theorem style_reportAll : (reporter.reportAll ds).style = reporter.style := by
  induction ds generalizing reporter with
  | nil => rfl
  | cons d rest ih => exact ih (reporter.report d)

/-- What is shown depends on the texts and the style alone. -/
theorem sink_reportAll :
    (reporter.reportAll ds).sink = (ds.map reporter.render).foldl Sink.accept reporter.sink := by
  induction ds generalizing reporter with
  | nil => rfl
  | cons d rest ih => exact ih (reporter.report d)

/-- Nothing counts yet when a further text is begun. -/
theorem checkpoint_eq_none_iff (text : String) :
    ((reporter.addSource text).reportAll ds).checkpoint = none ↔ ds = [] := by
  have counted := (reporter.addSource text).errors_reportAll ds
  have zero : (reporter.addSource text).errors = 0 := rfl
  rw [zero, Nat.zero_add] at counted
  unfold checkpoint
  rw [counted]
  cases ds with
  | nil => simp
  | cons d rest => simp

theorem checkpoint_eq_exit {exit : Exit} (stops : reporter.checkpoint = some exit) :
    exit = reporter.exit := by
  unfold checkpoint at stops
  split at stops
  · cases stops
  · exact (Option.some.inj stops).symm

end Reporter

namespace Journal

variable (j : Journal) (s : Session)

@[simp]
theorem reported_add_reported (ds : List Diagnostic) :
    (j.add s (ds.map .reported)).reported = j.reported ++ ds := by
  simp [reported, add, List.filterMap_map]

@[simp]
theorem listed_add_reported (ds : List Diagnostic) :
    (j.add s (ds.map .reported)).listed = j.listed := by
  simp [listed, add, List.filterMap_map]

@[simp]
theorem executed_add_reported (ds : List Diagnostic) :
    (j.add s (ds.map .reported)).executed = j.executed := by
  simp [executed, add, List.filterMap_map]

@[simp]
theorem reported_add_listed (text : String) :
    (j.add s [.listed text]).reported = j.reported := by
  simp [reported, add]

@[simp]
theorem listed_add_listed (text : String) :
    (j.add s [.listed text]).listed = j.listed ++ [text] := by
  simp [listed, add]

@[simp]
theorem executed_add_listed (text : String) :
    (j.add s [.listed text]).executed = j.executed := by
  simp [executed, add]

@[simp]
theorem reported_add_executed (program : List Stmt) :
    (j.add s [.executed program]).reported = j.reported := by
  simp [reported, add]

@[simp]
theorem listed_add_executed (program : List Stmt) :
    (j.add s [.executed program]).listed = j.listed := by
  simp [listed, add]

@[simp]
theorem executed_add_executed (program : List Stmt) :
    (j.add s [.executed program]).executed = j.executed ++ [program] := by
  simp [executed, add]

end Journal

namespace Session

variable (s : Session) (source : String)

def tokens : List Token :=
  Token.ofText s.reporter.nextBase (Text.plainNewlines source.toList)

def parsed : Grammar.Parse :=
  Grammar.parse (s.tokens source) s.nextNode

/-- The reporter when a run begins. -/
def begun : Reporter :=
  s.reporter.addSource (String.ofList (Text.plainNewlines source.toList))

/-- The listings that a run is asked for. -/
def Lists (text : String) : Prop :=
  (s.config.dumpTokens = true ∧ text = s.config.dumpFormat.tokens (s.tokens source)) ∨
    (s.config.dumpAst = true ∧ text = s.config.dumpFormat.program (s.parsed source).statements)

/-- A machine with some listings written. -/
def withListings (texts : List String) : Machine :=
  { s.machine with output := texts.foldl Sink.accept s.machine.output }

/-- The reporter has counted what has been reported, and what has been listed was asked for. -/
structure Keeps (j : Journal) : Prop where
  reporter : j.session.reporter = (s.begun source).reportAll j.reported
  listed : ∀ text ∈ j.listed, s.Lists source text

/-- No program has been executed so far. -/
structure Loading (j : Journal) : Prop extends s.Keeps source j where
  machine : j.session.machine = s.withListings j.listed
  executed : j.executed = []

/-- A program has been executed, since nothing spoke against it. -/
structure Executed (j : Journal) : Prop extends s.Keeps source j where
  parses : s.config.stopAfterParse = false
  resolves : s.config.stopAfterResolve = false
  runtime : ∀ d ∈ j.reported, d.isRuntime = true

def Closed (j : Journal) : Prop :=
  s.Loading source j ∨ s.Executed source j

variable {s source} in
theorem Closed.keeps {j : Journal} (closed : s.Closed source j) : s.Keeps source j :=
  closed.elim (fun loading => loading.toKeeps) fun executed => executed.toKeeps

end Session

namespace Noted

variable {α β : Type}

/-- What a stage leaves: how the run ends there, or what it goes on with. -/
def Leaves (stage : Noted α) (j : Journal) (bad : Halt → Journal → Prop)
    (good : α → Journal → Prop) : Prop :=
  match stage j with
  | .ok a after => good a after
  | .error halt after => bad halt after

variable {stage : Noted α} {j : Journal} {bad : Halt → Journal → Prop} {good : α → Journal → Prop}

theorem Leaves.bind {next : β → Journal → Prop} {second : α → Noted β}
    (one : Leaves stage j bad good) (two : ∀ a after, good a after → Leaves (second a) after bad next) :
    Leaves (stage >>= second) j bad next := by
  unfold Leaves at one ⊢
  cases result : stage j with
  | ok a after =>
      rw [result] at one
      rw [Outcome.bind_of_ok result]
      exact two a after one
  | error halt after =>
      rw [result] at one
      rw [Outcome.bind_of_error result]
      exact one

theorem Leaves.imp {worse : Halt → Journal → Prop} {better : α → Journal → Prop}
    (leaves : Leaves stage j bad good) (onError : ∀ halt after, bad halt after → worse halt after)
    (improves : ∀ a after, good a after → better a after) : Leaves stage j worse better := by
  unfold Leaves at leaves ⊢
  cases result : stage j with
  | ok a after =>
      rw [result] at leaves
      exact improves a after leaves
  | error halt after =>
      rw [result] at leaves
      exact onError halt after leaves

theorem Leaves.session_bind {next : β → Journal → Prop} {second : Session → Noted β}
    (rest : Leaves (second j.session) j bad next) : Leaves (session >>= second) j bad next :=
  rest

theorem Leaves.change_bind {next : β → Journal → Prop} {second : Unit → Noted β}
    (f : Session → Session)
    (rest : Leaves (second ()) { j with session := f j.session } bad next) :
    Leaves (change f >>= second) j bad next :=
  rest

/-- A run that ends early has reported something, and its exit says so. -/
def Halts (s : Session) (source : String) (halt : Halt) (j : Journal) : Prop :=
  s.Closed source j ∧
    ∀ exit, halt = .exit exit → j.reported ≠ [] ∧ exit = j.session.reporter.exit

variable {s : Session} {source : String}

theorem halt_leaves (closed : s.Closed source j) (some : j.reported ≠ []) :
    Leaves (halt : Noted α) j (Halts s source) good := by
  refine ⟨closed, fun exit same => ?_⟩
  cases same
  exact ⟨some, rfl⟩

theorem checkpoint_leaves (closed : s.Closed source j) :
    Leaves checkpoint j (Halts s source) fun _ after => after = j ∧ j.reported = [] := by
  have clean : j.session.reporter.checkpoint = none ↔ j.reported = [] := by
    rw [closed.keeps.reporter]
    exact Reporter.checkpoint_eq_none_iff _ _ _
  unfold Leaves checkpoint
  cases result : j.session.reporter.checkpoint with
  | none => exact ⟨rfl, clean.mp result⟩
  | some exit =>
      refine ⟨closed, fun other same => ?_⟩
      cases same
      refine ⟨fun none => ?_, Reporter.checkpoint_eq_exit _ result⟩
      rw [clean.mpr none] at result
      cases result

end Noted

namespace Session

variable {s : Session} {source : String} {j : Journal}

theorem Keeps.report (keeps : s.Keeps source j) (session : Session) (ds : List Diagnostic)
    (reporter : session.reporter = j.session.reporter.reportAll ds) :
    s.Keeps source (j.add session (ds.map .reported)) := by
  constructor
  · rw [Journal.reported_add_reported, Reporter.reportAll_append, ← keeps.reporter]
    exact reporter
  · rw [Journal.listed_add_reported]
    exact keeps.listed

theorem Loading.report (loading : s.Loading source j) (ds : List Diagnostic) :
    s.Loading source (j.add { j.session with reporter := j.session.reporter.reportAll ds }
      (ds.map .reported)) := by
  refine ⟨loading.toKeeps.report _ ds rfl, ?_, ?_⟩
  · rw [Journal.listed_add_reported]
    exact loading.machine
  · rw [Journal.executed_add_reported]
    exact loading.executed

theorem Loading.list (loading : s.Loading source j) {text : String} (lists : s.Lists source text) :
    s.Loading source (j.add { j.session with machine := { j.session.machine with
      output := j.session.machine.output.accept text } } [.listed text]) := by
  refine ⟨⟨?_, ?_⟩, ?_, ?_⟩
  · rw [Journal.reported_add_listed]
    exact loading.reporter
  · rw [Journal.listed_add_listed]
    intro other member
    rcases List.mem_append.mp member with old | new
    · exact loading.listed other old
    · rw [List.mem_singleton.mp new]
      exact lists
  · rw [Journal.listed_add_listed]
    change { j.session.machine with output := j.session.machine.output.accept text } = _
    rw [loading.machine]
    simp only [withListings, List.foldl_append, List.foldl_cons, List.foldl_nil]
  · rw [Journal.executed_add_listed]
    exact loading.executed

/-- What is neither shown nor on the machine may change. -/
theorem Loading.change (loading : s.Loading source j) (f : Session → Session)
    (reporter : (f j.session).reporter = j.session.reporter)
    (machine : (f j.session).machine = j.session.machine) :
    s.Loading source { j with session := f j.session } :=
  ⟨⟨reporter.trans loading.reporter, loading.listed⟩, machine.trans loading.machine,
    loading.executed⟩

theorem Loading.execute (loading : s.Loading source j) (clean : j.reported = [])
    (parses : s.config.stopAfterParse = false) (resolves : s.config.stopAfterResolve = false)
    (machine : Machine) (program : List Stmt) :
    s.Executed source (j.add { j.session with machine := machine } [.executed program]) := by
  refine ⟨⟨?_, ?_⟩, parses, resolves, ?_⟩
  · rw [Journal.reported_add_executed]
    exact loading.reporter
  · rw [Journal.listed_add_executed]
    exact loading.listed
  · rw [Journal.reported_add_executed, clean]
    exact nofun

theorem Executed.report (executed : s.Executed source j) {d : Diagnostic}
    (runtime : d.isRuntime = true) :
    s.Executed source (j.add { j.session with reporter := j.session.reporter.reportAll [d] }
      ([d].map .reported)) := by
  refine ⟨executed.toKeeps.report _ [d] rfl, executed.parses, executed.resolves, ?_⟩
  rw [Journal.reported_add_reported]
  intro other member
  rcases List.mem_append.mp member with old | new
  · exact executed.runtime other old
  · rw [List.mem_singleton.mp new]
    exact runtime

end Session

theorem RuntimeError.isRuntime_diagnostic (e : RuntimeError) : e.diagnostic.isRuntime = true := by
  cases e <;> rfl

namespace Noted

variable {s : Session} {source : String} {j : Journal}

theorem report_leaves (loading : s.Loading source j) (ds : List Diagnostic) :
    Leaves (report ds) j (Halts s source) fun _ after =>
      s.Loading source after ∧ after.session.nextNode = j.session.nextNode ∧
        after.reported = j.reported ++ ds :=
  ⟨loading.report ds, rfl, Journal.reported_add_reported _ _ _⟩

theorem scan_leaves : Leaves (scan source) ⟨s, []⟩ (Halts s source) fun tokens after =>
    s.Loading source after ∧ after.session.nextNode = s.nextNode ∧ tokens = s.tokens source := by
  have begun : s.Loading source ⟨{ s with reporter := s.begun source }, []⟩ :=
    ⟨⟨rfl, nofun⟩, rfl, rfl⟩
  exact ⟨begun.report _, rfl, rfl⟩

theorem refuse_leaves (loading : s.Loading source j) (failure : SinkFailure)
    (good : Unit → Journal → Prop) : Leaves (refuse failure) j (Halts s source) good := by
  apply (report_leaves loading _).bind
  intro _ after shown
  apply halt_leaves (.inl shown.1)
  rw [shown.2.2]
  exact List.append_ne_nil_of_right_ne_nil _ (List.cons_ne_nil _ _)

theorem dumpIf_leaves (loading : s.Loading source j) (asked : Bool) (text : String)
    (lists : asked = true → s.Lists source text) :
    Leaves (dumpIf asked text) j (Halts s source) fun _ after =>
      s.Loading source after ∧ after.session.nextNode = j.session.nextNode := by
  cases asked with
  | false => exact ⟨loading, rfl⟩
  | true =>
      have listed := loading.list (lists rfl)
      change Leaves (dump text) j _ _
      unfold Leaves dump
      dsimp only
      cases j.session.machine.output.deliveryFailure? text with
      | none => exact ⟨listed, rfl⟩
      | some failure =>
          exact refuse_leaves listed failure fun _ after =>
            s.Loading source after ∧ after.session.nextNode = j.session.nextNode

theorem parse_leaves (loading : s.Loading source j) (next : j.session.nextNode = s.nextNode) :
    Leaves (parse (s.tokens source)) j (Halts s source) fun program after =>
      s.Loading source after ∧ program = (s.parsed source).statements := by
  have same : Grammar.parse (s.tokens source) j.session.nextNode = s.parsed source := by
    rw [next]
    rfl
  unfold parse
  apply Leaves.session_bind
  rw [same]
  have numbered := loading.change
    (fun now => { now with nextNode := (s.parsed source).nextId }) rfl rfl
  apply Leaves.change_bind
  apply (report_leaves numbered _).bind
  intro _ after shown
  cases fatal : (s.parsed source).fatal with
  | none => exact ⟨shown.1, rfl⟩
  | some e =>
      apply halt_leaves (.inl shown.1)
      rw [shown.2.2]
      apply List.append_ne_nil_of_right_ne_nil
      simp [Grammar.Parse.diagnostics, Grammar.Parse.errors, fatal]

theorem resolve_leaves (loading : s.Loading source j) (first : NodeId) (program : List Stmt) :
    Leaves (resolve first program) j (Halts s source) fun _ after => s.Loading source after := by
  unfold resolve
  apply Leaves.session_bind
  obtain ⟨fault, bindings⟩ := Lox.resolve j.session.bindings program
  cases fault with
  | none => exact loading.change (fun now => { now with bindings := bindings }) rfl rfl
  | some e =>
      have forgotten := loading.change
        (fun now => { now with bindings := bindings.forgetFrom first }) rfl rfl
      apply Leaves.change_bind
      exact (report_leaves forgotten _).imp (fun _ _ => id) fun _ _ => And.left

/-- A program is loaded only if nothing has been reported and the run is not meant to stop before. -/
theorem load_leaves : Leaves (load source) ⟨s, []⟩ (Halts s source) fun found after =>
    s.Loading source after ∧ after.reported = [] ∧ (found.isSome = true →
      s.config.stopAfterParse = false ∧ s.config.stopAfterResolve = false) := by
  unfold load
  apply Leaves.session_bind
  apply scan_leaves.bind
  rintro tokens scanned ⟨loading, next, rfl⟩
  apply (dumpIf_leaves loading _ _ fun asked => .inl ⟨asked, rfl⟩).bind
  rintro _ listed ⟨loading, same⟩
  apply (checkpoint_leaves (.inl loading)).bind
  rintro _ checked ⟨rfl, -⟩
  apply Leaves.session_bind
  apply (parse_leaves loading (same.trans next)).bind
  rintro program parsed ⟨loading, rfl⟩
  apply (dumpIf_leaves loading _ _ fun asked => .inr ⟨asked, rfl⟩).bind
  rintro _ listed ⟨loading, -⟩
  apply (checkpoint_leaves (.inl loading)).bind
  rintro _ checked ⟨rfl, clean⟩
  cases parses : s.config.stopAfterParse with
  | true => exact ⟨loading, clean, nofun⟩
  | false =>
      apply (resolve_leaves loading _ _).bind
      intro _ resolved loading
      apply (checkpoint_leaves (.inl loading)).bind
      rintro _ checked ⟨rfl, clean⟩
      cases resolves : s.config.stopAfterResolve with
      | true => exact ⟨loading, clean, nofun⟩
      | false => exact ⟨loading, clean, fun _ => ⟨rfl, rfl⟩⟩

theorem execute_leaves (loading : s.Loading source j) (clean : j.reported = [])
    (parses : s.config.stopAfterParse = false) (resolves : s.config.stopAfterResolve = false)
    (bound : Nat) (program : List Stmt) :
    Leaves (execute bound program) j (Halts s source) fun _ after => s.Executed source after := by
  have executed (machine : Machine) := loading.execute clean parses resolves machine program
  unfold Leaves execute
  dsimp only
  cases Exec.program (Exec.context j.session.bindings j.session.config.maxCallDepth bound) program
      j.session.machine with
  | ok done machine => exact executed machine
  | error stop machine =>
      cases stop with
      | error e => exact (executed machine).report e.isRuntime_diagnostic
      | exhausted => exact ⟨.inr (executed machine), nofun⟩

/-- A run that goes through has reported nothing. -/
theorem run_leaves (bound : Nat) : Leaves (run bound source) ⟨s, []⟩ (Halts s source)
    fun _ after => s.Closed source after ∧ after.reported = [] := by
  apply load_leaves.bind
  rintro found loaded ⟨loading, clean, goes⟩
  cases found with
  | none => exact ⟨.inl loading, clean⟩
  | some program =>
      obtain ⟨parses, resolves⟩ := goes rfl
      apply (execute_leaves loading clean parses resolves bound program).bind
      intro _ ran executed
      apply (checkpoint_leaves (.inr executed)).imp (fun _ _ => id)
      rintro _ after ⟨rfl, clean⟩
      exact ⟨.inr executed, clean⟩

end Noted

/-- What a run has reported is what its reporter has shown. -/
theorem Session.keeps_journal (s : Session) (bound : Nat) (source : String) :
    s.Keeps source (s.journal bound source) := by
  have leaves := @Noted.run_leaves s source bound
  unfold Noted.Leaves at leaves
  unfold Session.journal
  cases result : Noted.run bound source ⟨s, []⟩ with
  | ok done last =>
    rw [result] at leaves
    exact leaves.1.keeps
  | error halt last =>
    rw [result] at leaves
    exact leaves.1.keeps

/-- How a run ends and what its journal says. -/
theorem Session.journal_of_run {s after : Session} {bound : Nat} {source : String}
    {exit : Option Exit} (ran : s.run bound source = some (exit, after)) :
    (s.journal bound source).session = after ∧ s.Closed source (s.journal bound source) ∧
      (exit = none → (s.journal bound source).reported = []) ∧
        ∀ e, exit = some e →
          (s.journal bound source).reported ≠ [] ∧ e = after.reporter.exit := by
  have same := Noted.plain_run bound source ⟨s, []⟩
  have leaves : Noted.Leaves (Noted.run bound source) ⟨s, []⟩ (Noted.Halts s source) _ :=
    Noted.run_leaves bound
  unfold Noted.Leaves at leaves
  unfold Session.run at ran
  unfold Session.journal
  rw [← same] at ran
  cases result : Noted.run bound source ⟨s, []⟩ with
  | ok done j =>
      rw [result] at leaves ran
      cases ran
      exact ⟨rfl, leaves.1, fun _ => leaves.2, nofun⟩
  | error halt j =>
      rw [result] at leaves ran
      cases halt with
      | exit status =>
          cases ran
          refine ⟨rfl, leaves.1, nofun, fun e equal => ?_⟩
          cases equal
          exact leaves.2 status rfl
      | exhausted => cases ran

theorem Exit.status_eq (reporter : Reporter) (text : String) (ds : List Diagnostic) :
    ((reporter.addSource text).reportAll ds).exit.status =
      if ds.any Diagnostic.isRuntime then 70 else 65 := by
  unfold status
  change (if ((reporter.addSource text).reportAll ds).runtimeFailure = true then 70 else 65) = _
  rw [Reporter.runtimeFailure_reportAll]
  rfl

/-- A run fails if and only if it has reported something; its exit counts the reports, and its status tells
whether one of them arose at run time or while something was written. If one of them speaks against the
source, or the run is meant to stop before, then no program has been executed, and nothing has happened
to the machine but that listings were written which the run was asked for. -/
theorem exit_tells_what_was_reported {s after : Session} {bound : Nat} {source : String}
    {exit : Option Exit} (ran : s.run bound source = some (exit, after)) :
    let journal := s.journal bound source
    Noted.forget (Noted.run bound source ⟨s, []⟩) = Stage.run bound source s ∧
    journal.session = after ∧ after.reporter = (s.begun source).reportAll journal.reported ∧
    (exit.isSome = true ↔ journal.reported ≠ []) ∧
    (∀ e, exit = some e → e.errors = journal.reported.length ∧
      e.status = if ∃ d ∈ journal.reported, d.kind = .runtime ∨ d.kind = .output then 70 else 65) ∧
    ((∃ d ∈ journal.reported, d.kind = .lexical ∨ d.kind = .grammatical ∨ d.kind = .resolution) ∨
        s.config.stopAfterParse = true ∨ s.config.stopAfterResolve = true →
      journal.executed = [] ∧
      after.machine = { s.machine with
        output := journal.listed.foldl Sink.accept s.machine.output } ∧
      ∀ text ∈ journal.listed, s.Lists source text) := by
  intro journal
  obtain ⟨same, closed, succeeds, fails⟩ := Session.journal_of_run ran
  have reporter : after.reporter = (s.begun source).reportAll journal.reported :=
    same ▸ closed.keeps.reporter
  refine ⟨Noted.plain_run bound source ⟨s, []⟩, same, reporter, ⟨?_, ?_⟩, ?_, ?_⟩
  · intro failed
    obtain ⟨e, isExit⟩ := Option.isSome_iff_exists.mp failed
    exact (fails e isExit).1
  · intro some
    cases exit with
    | none => exact absurd (succeeds rfl) some
    | some e => rfl
  · intro e isExit
    rw [(fails e isExit).2, reporter]
    constructor
    · refine (Reporter.errors_reportAll _ _).trans ?_
      exact Nat.zero_add _
    · refine (Exit.status_eq _ _ _).trans ?_
      simp only [List.any_eq_true, Diagnostic.isRuntime, Bool.or_eq_true, beq_iff_eq]
  · intro early
    rcases closed with loading | executed
    · refine ⟨loading.executed, ?_, loading.listed⟩
      rw [← same]
      exact loading.machine
    · rcases early with ⟨d, member, kind⟩ | parses | resolves
      · have runtime := executed.runtime d member
        unfold Diagnostic.isRuntime at runtime
        rcases kind with kind | kind | kind <;> rw [kind] at runtime <;> cases runtime
      · rw [executed.parses] at parses
        cases parses
      · rw [executed.resolves] at resolves
        cases resolves

/-- Two faults of the scanner stop a run whose tokens are listed. -/
theorem exit_tells_what_was_reported_of_scanner_faults :
    let s := Session.new { dumpTokens := true } .unlimited .unlimited
    let source := "var a; print a; @ \"open"
    (s.run 8 source).map (fun ran => ran.1.map fun e => (e.errors, e.status)) =
        some (some (2, 65)) ∧
      (s.journal 8 source).reported.map (·.kind) = [.lexical, .lexical] ∧
      ∀ exit after, s.run 8 source = some (exit, after) →
        (exit.isSome = true ↔ (s.journal 8 source).reported ≠ []) ∧
          ∀ e, exit = some e → e.errors = (s.journal 8 source).reported.length :=
  ⟨by decide +kernel, by decide +kernel, fun _ _ ran =>
    ⟨(exit_tells_what_was_reported ran).2.2.2.1, fun e isExit =>
      ((exit_tells_what_was_reported ran).2.2.2.2.1 e isExit).1⟩⟩

end Lox
