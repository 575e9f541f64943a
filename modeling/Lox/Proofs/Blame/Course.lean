import Lox.Proofs.Blame.Place
import Lox.Proofs.Blame.Reading
import Lox.Proofs.Session.Presence

set_option autoImplicit false

/-! Where the diagnostics of a run come from. Every stage reports at items of the text that it was given, and
execution at tokens of this run or of one before, since every function on the machine was read in one of
them. -/

namespace Lox

namespace Session

/-- What a diagnostic of a run is about. -/
inductive Blames (s : Session) (bound : Nat) (source : String) : Diagnostic → Token.Item → Prop
  | lexical {e : LexicalError} (read : .error e ∈ Token.scan s.reporter.nextBase (textOf source)) :
      Blames s bound source e.diagnostic (.error e)
  | grammatical {e : SyntaxError} (recorded : e ∈ (s.parsed source).errors) :
      Blames s bound source e.diagnostic (.token e.token)
  | resolution {e : ResolutionError}
      (refused : (Lox.resolve s.bindings (s.parsed source).statements).1 = some e) :
      Blames s bound source e.diagnostic (.token e.token)
  | runtime {program : List Stmt} {loaded : Session} {fault : RuntimeFault} {token : Token}
      {last : Machine} (loads : Stage.load source s = .ok (some program) loaded)
      (stops : Exec.program
        (Exec.context loaded.bindings loaded.config.maxCallDepth bound) program loaded.machine =
          .error (.error (.faulted fault token)) last) :
      Blames s bound source (RuntimeError.faulted fault token).diagnostic (.token token)

/-- What is blamed is what the diagnostic has the bytes of. -/
theorem Blames.span {s : Session} {bound : Nat} {source : String} {d : Diagnostic} {item : Token.Item}
    (blames : s.Blames bound source d item) : d.span = some item.span := by
  cases blames <;> rfl

/-- Tokens of some runs. -/
def Origin (sources : List String) (t : Token) : Prop :=
  ∃ later origin earlier, StandsIn sources later origin earlier (.token t)

theorem Origin.later {sources : List String} {t : Token} (known : Origin sources t)
    (source : String) : Origin (source :: sources) t := by
  obtain ⟨later, origin, earlier, split, member⟩ := known
  exact ⟨source :: later, origin, earlier, congrArg (source :: ·) split, member⟩

/-- A session that has run some sources, latest first: it knows their texts, and its functions were read
there. -/
structure Traceable (past : List String) (s : Session) : Prop where
  sources : s.reporter.sources = textsOf past
  style : s.reporter.style = s.config.style
  functions : s.machine.Drawn (Origin past) s.bindings

/-- A diagnostic of a run of a source, after some runs, is about something in one of their texts, and only
execution can lead to an earlier one. -/
def Explains (s : Session) (past : List String) (bound : Nat) (source : String) (d : Diagnostic) :
    Prop :=
  d.span ≠ none → ∃ item later origin earlier, s.Blames bound source d item ∧
    StandsIn (source :: past) later origin earlier item ∧ (d.kind ≠ .runtime → later = [])

/-- Where a run has got to, with all that it has reported explained. -/
structure Told (s : Session) (past : List String) (bound : Nat) (source : String) (j : Journal) :
    Prop where
  reported : ∀ d ∈ j.reported, s.Explains past bound source d
  config : j.session.config = s.config
  functions : j.session.machine.Drawn (Origin (source :: past)) j.session.bindings

section

variable {s : Session} {past : List String} {bound : Nat} {source : String} {j : Journal}

theorem Told.report (told : s.Told past bound source j) {ds : List Diagnostic}
    (explained : ∀ d ∈ ds, s.Explains past bound source d) :
    s.Told past bound source (j.add
      { j.session with reporter := j.session.reporter.reportAll ds } (ds.map .reported)) := by
  refine ⟨fun d member => ?_, told.config, told.functions⟩
  rw [Journal.reported_add_reported] at member
  rcases List.mem_append.mp member with old | new
  · exact told.reported d old
  · exact explained d new

theorem Told.list (told : s.Told past bound source j) (text : String) :
    s.Told past bound source (j.add { j.session with machine := { j.session.machine with
      output := j.session.machine.output.accept text } } [.listed text]) := by
  refine ⟨?_, told.config, told.functions.of_functions rfl⟩
  rw [Journal.reported_add_listed]
  exact told.reported

theorem Told.execute (told : s.Told past bound source j) (program : List Stmt) {machine : Machine}
    (drawn : machine.Drawn (Origin (source :: past)) j.session.bindings) :
    s.Told past bound source (j.add { j.session with machine := machine } [.executed program]) := by
  refine ⟨?_, told.config, drawn⟩
  rw [Journal.reported_add_executed]
  exact told.reported

/-- What is neither reported nor on the machine may change, and nodes without slots may get some. -/
theorem Told.change (told : s.Told past bound source j) (f : Session → Session)
    (config : (f j.session).config = j.session.config)
    (machine : (f j.session).machine = j.session.machine)
    (kept : ∀ id, (j.session.bindings.slot? id).isSome = true →
      ((f j.session).bindings.slot? id).isSome = true) :
    s.Told past bound source { j with session := f j.session } := by
  refine ⟨told.reported, config.trans told.config, ?_⟩
  change (f j.session).machine.Drawn _ _
  rw [machine]
  exact told.functions.mono (fun _ => id) kept

/-- Where a run has got to before names are resolved. -/
structure Unresolved (s : Session) (past : List String) (bound : Nat) (source : String) (j : Journal) :
    Prop extends s.Told past bound source j where
  bindings : j.session.bindings = s.bindings

namespace Traceable

variable (traceable : s.Traceable past)
include traceable

theorem standsIn {item : Token.Item}
    (read : item ∈ Token.scan s.reporter.nextBase (textOf source)) :
    StandsIn (source :: past) [] source past item := by
  rw [Reporter.nextBase_of_sources traceable.sources] at read
  exact ⟨rfl, read⟩

theorem token_standsIn {t : Token} (read : t ∈ s.tokens source) :
    StandsIn (source :: past) [] source past (.token t) := by
  obtain ⟨item, inScan, found⟩ := List.mem_filterMap.mp read
  cases item with
  | error e => cases found
  | token u =>
    cases found
    exact traceable.standsIn inScan

theorem origin {t : Token} (read : t ∈ s.tokens source) : Origin (source :: past) t :=
  ⟨[], source, past, traceable.token_standsIn read⟩

/-- What is about a token of the source of the run is explained. -/
theorem explains {d : Diagnostic} {t : Token} (blames : s.Blames bound source d (.token t))
    (read : t ∈ s.tokens source) : s.Explains past bound source d :=
  fun _ => ⟨_, [], source, past, blames, traceable.token_standsIn read, fun _ => rfl⟩

end Traceable

theorem explains_outputFailed (failure : SinkFailure) :
    s.Explains past bound source (RuntimeError.outputFailed failure).diagnostic :=
  fun some => absurd rfl some

end
end Session

namespace Noted

variable {s : Session} {past : List String} {bound : Nat} {source : String} {j : Journal}
  {sites : List Site}

theorem scan_told (traceable : s.Traceable past) :
    Leaves (scan source) ⟨s, []⟩ (fun _ => s.Told past bound source) fun tokens after =>
      s.Unresolved past bound source after ∧ after.session.nextNode = s.nextNode ∧
        tokens = s.tokens source := by
  have begun : s.Told past bound source ⟨{ s with reporter := s.begun source }, []⟩ :=
    ⟨nofun, rfl, traceable.functions.mono (fun _ known => known.later source) fun _ => id⟩
  refine ⟨⟨begun.report ?_, rfl⟩, rfl, rfl⟩
  intro d member some
  obtain ⟨item, read, isError⟩ := List.mem_filterMap.mp member
  cases item with
  | token t => cases isError
  | error e =>
    cases isError
    exact ⟨_, [], source, past, .lexical read, traceable.standsIn read, fun _ => rfl⟩

theorem dumpIf_told (early : s.Unresolved past bound source j) (asked : Bool) (text : String) :
    Leaves (dumpIf asked text) j (fun _ => s.Told past bound source) fun _ after =>
      s.Unresolved past bound source after ∧ after.session.nextNode = j.session.nextNode := by
  cases asked with
  | false => exact ⟨early, rfl⟩
  | true =>
    have listed := early.toTold.list text
    change Leaves (dump text) j _ _
    unfold Leaves dump
    dsimp only
    cases j.session.machine.output.deliveryFailure? text with
    | none => exact ⟨⟨listed, early.bindings⟩, rfl⟩
    | some failure =>
      refine listed.report fun d member => ?_
      rw [List.mem_singleton.mp member]
      exact Session.explains_outputFailed failure

theorem checkpoint_told (told : s.Told past bound source j) :
    Leaves checkpoint j (fun _ => s.Told past bound source) fun _ after => after = j := by
  unfold Leaves checkpoint
  cases j.session.reporter.checkpoint with
  | none => exact rfl
  | some exit => exact told

theorem parse_told (traceable : s.Traceable past) (early : s.Unresolved past bound source j)
    (next : j.session.nextNode = s.nextNode) :
    Leaves (parse (s.tokens source)) j (fun _ => s.Told past bound source) fun program after =>
      s.Unresolved past bound source after ∧ program = (s.parsed source).statements := by
  have same : Grammar.parse (s.tokens source) j.session.nextNode = s.parsed source := by
    rw [next]
    rfl
  unfold parse
  apply Leaves.session_bind
  rw [same]
  have numbered := early.toTold.change
    (fun now => { now with nextNode := (s.parsed source).nextId }) rfl rfl fun _ => id
  have explained : ∀ d ∈ (s.parsed source).diagnostics, s.Explains past bound source d := by
    intro d member
    obtain ⟨e, recorded, rfl⟩ := List.mem_map.mp member
    exact traceable.explains (.grammatical recorded)
      (Grammar.token_mem_of_parse (s.tokens_end source) recorded)
  have shown := numbered.report explained
  apply Leaves.change_bind
  unfold Leaves
  cases (s.parsed source).fatal with
  | none => exact ⟨⟨shown, early.bindings⟩, rfl⟩
  | some e => exact shown

/-- Resolution gives slots to nodes of the program alone, all of which are new. -/
theorem kept_of_resolve (sound : s.Sound sites) (source : String) {id : NodeId}
    (known : (s.bindings.slot? id).isSome = true) :
    ((Lox.resolve s.bindings (s.parsed source).statements).2.slot? id).isSome = true ∧
      id < s.nextNode := by
  have fit : Grammar.Fit.stmts s.nextNode (s.parsed source).nextId (s.parsed source).statements :=
    Grammar.parse_fit (Token.ofText_spelled _ _) s.nextNode
  have old : id < s.nextNode := by
    by_contra new
    rw [sound.below id (Nat.le_of_not_lt new)] at known
    cases known
  rw [resolve_outside fit sound.below (.inl old)]
  exact ⟨known, old⟩

/-- A program that is refused is refused at one of its tokens, and one that is accepted is drawn from
them. -/
theorem resolve_told (traceable : s.Traceable past) (sound : s.Sound sites)
    (early : s.Unresolved past bound source j) :
    Leaves (resolve s.nextNode (s.parsed source).statements) j (fun _ => s.Told past bound source)
      fun _ after => s.Told past bound source after ∧ (after.reported = [] →
        Stmts.Like (.drawn (Session.Origin (source :: past)) after.session.bindings)
          (s.parsed source).statements (s.parsed source).statements) := by
  have alone := s.resolve_parsed source sound.below
  have kept (id : NodeId) := @kept_of_resolve s sites sound source id
  have bindings := early.bindings
  unfold resolve
  apply Leaves.session_bind
  rw [bindings]
  cases result : Lox.resolve s.bindings (s.parsed source).statements with
  | mk refused after =>
    rw [result] at alone kept
    cases refused with
    | none =>
      have told := early.toTold.change (fun now => { now with bindings := after }) rfl rfl
        fun id known => (kept id (bindings ▸ known)).1
      refine ⟨told, fun _ => (alone.2 rfl).mono ?_⟩
      exact Likeness.drawn_le (fun t read => traceable.origin read) fun _ => id
    | some e =>
      have told := early.toTold.change
        (fun now => { now with bindings := after.forgetFrom s.nextNode }) rfl rfl fun id known => by
          obtain ⟨still, old⟩ := kept id (bindings ▸ known)
          change ((after.forgetFrom s.nextNode).slot? id).isSome = true
          rw [Bindings.slot?_forgetFrom, if_pos old]
          exact still
      have explained : ∀ d ∈ [e.diagnostic], s.Explains past bound source d := by
        intro d member
        rw [List.mem_singleton.mp member]
        exact traceable.explains (.resolution (congrArg Prod.fst result)) (alone.1 e rfl)
      refine ⟨told.report explained, fun none => ?_⟩
      rw [Journal.reported_add_reported] at none
      cases (List.append_eq_nil_iff.mp none).2

/-- A program that has been loaded, with nothing reported, is drawn from the tokens of its source. -/
theorem load_told (traceable : s.Traceable past) (sound : s.Sound sites) :
    Leaves (load source) ⟨s, []⟩ (fun _ => s.Told past bound source) fun found after =>
      s.Told past bound source after ∧ ∀ program, found = some program → after.reported = [] →
        Stmts.Like (.drawn (Session.Origin (source :: past)) after.session.bindings) program
          program := by
  unfold load
  apply Leaves.session_bind
  apply (scan_told traceable).bind
  rintro tokens scanned ⟨early, next, rfl⟩
  apply (dumpIf_told early _ _).bind
  rintro _ listed ⟨early, same⟩
  apply (checkpoint_told early.toTold).bind
  rintro _ checked rfl
  have first := same.trans next
  apply Leaves.session_bind
  rw [first]
  apply (parse_told traceable early first).bind
  rintro program parsed ⟨early, rfl⟩
  apply (dumpIf_told early _ _).bind
  rintro _ listed ⟨early, -⟩
  apply (checkpoint_told early.toTold).bind
  rintro _ checked rfl
  cases s.config.stopAfterParse with
  | true => exact ⟨early.toTold, nofun⟩
  | false =>
    apply (resolve_told traceable sound early).bind
    rintro _ resolved ⟨told, drawn⟩
    apply (checkpoint_told told).bind
    rintro _ checked rfl
    cases s.config.stopAfterResolve with
    | true => exact ⟨told, nofun⟩
    | false =>
      refine ⟨told, fun program same => ?_⟩
      cases same
      exact drawn

/-- A program that stops for a fault does so at a token of this run or of one before. -/
theorem execute_told (told : s.Told past bound source j) {program : List Stmt}
    (loads : Stage.load source s = .ok (some program) j.session)
    (drawn : Stmts.Like (.drawn (Session.Origin (source :: past)) j.session.bindings) program program)
    (sound : j.session.Sound (sites ++ Sites.program program)) (regular : Regular.stmts program) :
    Leaves (execute bound program) j (fun _ => s.Told past bound source)
      fun _ => s.Told past bound source := by
  have runs := Guarded.accountable_program drawn j.session.config.maxCallDepth bound
    j.session.machine told.functions
  rw [(Stage.program_keeps_of_sound sound regular Guarded.quiet bound).same] at runs
  unfold Leaves execute
  dsimp only
  cases result : Exec.program
      (Exec.context j.session.bindings j.session.config.maxCallDepth bound) program
      j.session.machine with
  | ok done machine =>
    rw [result] at runs
    exact told.execute program runs
  | error stop machine =>
    rw [result] at runs
    obtain ⟨still, blamed⟩ := runs
    cases stop with
    | exhausted => exact told.execute program still
    | error e =>
      refine (told.execute program still).report fun d member => ?_
      rw [List.mem_singleton.mp member]
      cases e with
      | outputFailed failure => exact Session.explains_outputFailed failure
      | faulted fault token =>
        obtain ⟨later, origin, earlier, stands⟩ := blamed fault token rfl
        exact fun _ => ⟨_, later, origin, earlier, .runtime loads result, stands,
          fun other => absurd rfl other⟩

theorem run_told (traceable : s.Traceable past) (sound : s.Sound sites) :
    Leaves (run bound source) ⟨s, []⟩ (fun _ => s.Told past bound source)
      fun _ => s.Told past bound source := by
  have loading := @load_told s past bound source sites traceable sound
  have clean := @load_leaves s source
  have plain := plain_load source ⟨s, []⟩
  have loads := Stage.load_ends sound source
  unfold Leaves at loading clean
  unfold Stage.Ends at loads
  unfold Leaves run
  cases result : load source ⟨s, []⟩ with
  | error halt last =>
    rw [result] at loading
    rw [Outcome.bind_of_error result]
    exact loading
  | ok found after =>
    rw [result] at loading clean plain
    rw [Outcome.bind_of_ok result]
    cases found with
    | none => exact loading.1
    | some program =>
      have same : Stage.load source s = .ok (some program) after.session := plain.symm
      rw [same] at loads
      obtain ⟨ready, regular⟩ := loads.2 program rfl
      have ran := execute_told loading.1 same (loading.2 program rfl clean.2.1) ready regular
      apply ran.bind
      rintro _ executed told
      exact (checkpoint_told told).imp (fun _ _ => id) fun _ _ same => same ▸ told

end Noted

namespace Session

variable {s : Session} {past : List String} {sites : List Site}

/-- Whatever a run has reported is explained. -/
theorem told_journal (traceable : s.Traceable past) (sound : s.Sound sites) (bound : Nat)
    (source : String) : s.Told past bound source (s.journal bound source) := by
  have told := @Noted.run_told s past bound source sites traceable sound
  unfold Noted.Leaves at told
  unfold journal
  generalize Noted.run bound source ⟨s, []⟩ = result at told ⊢
  cases result <;> exact told

end Session

namespace Session

/-- Sessions that are reached by runs, with the sources that they have run, latest first. -/
inductive HasRun : List String → Session → Prop
  | new (config : Config) (output errors : Sink) : HasRun [] (Session.new config output errors)
  | run {past : List String} {s after : Session} {exit : Option Exit} (bound : Nat) (source : String)
      (before : HasRun past s) (ran : s.run bound source = some (exit, after)) :
      HasRun (source :: past) after
  | resetScopes {past : List String} {s : Session} (before : HasRun past s) :
      HasRun past s.resetScopes

variable {s after : Session} {past : List String} {sites : List Site}

theorem HasRun.reachable (reached : s.HasRun past) : ∃ sites, s.Reachable sites := by
  induction reached with
  | new config output errors => exact ⟨[], .new config output errors⟩
  | run bound source _ ran before =>
    obtain ⟨sites, reachable⟩ := before
    exact ⟨_, reachable.run bound source ran⟩
  | resetScopes _ before =>
    obtain ⟨sites, reachable⟩ := before
    exact ⟨sites, reachable.resetScopes⟩

theorem sources_begun (traceable : s.Traceable past) (source : String) :
    (s.begun source).sources = textsOf (source :: past) := by
  have base := Reporter.nextBase_of_sources traceable.sources
  unfold begun Reporter.addSource
  rw [base, traceable.sources]
  rfl

theorem Traceable.config_of_run (traceable : s.Traceable past) (sound : s.Sound sites) {bound : Nat}
    {source : String} {exit : Option Exit} (ran : s.run bound source = some (exit, after)) :
    after.config = s.config := by
  have told := told_journal traceable sound bound source
  rw [← (journal_of_run ran).1]
  exact told.config

theorem Traceable.run (traceable : s.Traceable past) (sound : s.Sound sites) {bound : Nat}
    {source : String} {exit : Option Exit} (ran : s.run bound source = some (exit, after)) :
    after.Traceable (source :: past) := by
  have reporter := (s.keeps_journal bound source).reporter
  have functions := (told_journal traceable sound bound source).functions
  rw [(journal_of_run ran).1] at reporter functions
  refine ⟨?_, ?_, functions⟩
  · rw [reporter, Reporter.sources_reportAll, sources_begun traceable]
  · rw [reporter, Reporter.style_reportAll, traceable.config_of_run sound ran]
    exact traceable.style

theorem HasRun.traceable (reached : s.HasRun past) : s.Traceable past := by
  induction reached with
  | new config output errors =>
    exact ⟨rfl, rfl, fun id => .mk .none .nil .nil⟩
  | run bound source before ran traceable =>
    obtain ⟨sites, reachable⟩ := before.reachable
    exact traceable.run reachable.sound ran
  | resetScopes _ traceable =>
    exact ⟨traceable.sources, traceable.style, traceable.functions.of_functions rfl⟩

end Session

/-! ### What diagnostics point at -/

open Text (byteLength)
open Session (textOf baseAfter)

/-- In a session that shows diagnostics in one line each, whatever a run reports with a place in a source is
about an item of the text of this run or, if it arose during execution, of one before. It is shown with the
line that the item begins on in that text, and with the item as it is written there, or as the end if and only
if it is the end of that text; and it is never about a token that reading a switch made up. -/
theorem diagnostics_point_at_their_cause {past : List String} {s : Session} (reached : s.HasRun past)
    (reduced : s.config.style = .reduced) (bound : Nat) (source : String) :
    let journal := s.journal bound source
    (∀ exit after, s.run bound source = some (exit, after) → journal.session = after) ∧
    journal.session.reporter.sink =
      (journal.reported.map (s.begun source).render).foldl Sink.accept s.reporter.sink ∧
    ∀ d ∈ journal.reported, d.span ≠ none →
      ∃ item later origin earlier before taken rest,
        s.Blames bound source d item ∧
        Session.StandsIn (source :: past) later origin earlier item ∧
        (d.kind ≠ .runtime → later = []) ∧
        item.Place (baseAfter earlier) (textOf origin) before taken rest ∧
        (s.begun source).render d = "[line " ++ toString (1 + before.count '\n') ++ "] " ++
          d.kind.name ++ " at " ++ Diagnostic.shown taken ++ ": " ++ d.message ++ "\n" ∧
        (Diagnostic.shown taken = "end" ↔
          item = .token (Token.atEnd (baseAfter earlier + byteLength (textOf origin)))) ∧
        ∀ t, item = .token t → ∀ later' origin' earlier' keyword,
          Session.StandsIn (source :: past) later' origin' earlier' (.token keyword) →
            keyword.kind = .keyword .switchWord → ¬Grammar.Fabricated keyword t := by
  intro journal
  obtain ⟨sites, reachable⟩ := reached.reachable
  have traceable := reached.traceable
  have told := Session.told_journal traceable reachable.sound bound source
  have keeps := s.keeps_journal bound source
  refine ⟨fun exit after ran => (Session.journal_of_run ran).1, ?_, ?_⟩
  · rw [keeps.reporter, Reporter.sink_reportAll]
    rfl
  · intro d member placed
    obtain ⟨item, later, origin, earlier, blames, stands, current⟩ := told.reported d member placed
    obtain ⟨before, taken, rest, place⟩ := Token.place_of_scan stands.member
    have style : (s.begun source).style = .reduced := traceable.style.trans reduced
    have sources := Session.sources_begun traceable source
    rw [stands.split] at sources
    refine ⟨item, later, origin, earlier, before, taken, rest, blames, stands, current, place, ?_, ?_,
      ?_⟩
    · exact Reporter.render_of_place style sources place blames.span
    · exact Diagnostic.shown_eq_end_iff.trans place.ends
    · rintro t rfl later' origin' earlier' keyword switch word
      exact stands.not_fabricated switch word

/-- A function that was read in one run fails in the next one. -/
theorem diagnostics_point_at_their_cause_of_function :
    let new := Session.new { style := .reduced } .unlimited .unlimited
    let first := "// é\r\nfun f() \x7b\r\n  return -\"ö\";\r\n\x7d"
    (new.run 8 first).map (fun ran =>
        (ran.2.journal 8 "\n\nf();").reported.map (ran.2.begun "\n\nf();").render) =
        some ["[line 3] RuntimeError at '-': Operand must be a number.\n"] ∧
      ∀ exit s, new.run 8 first = some (exit, s) →
        ∀ d ∈ (s.journal 8 "\n\nf();").reported, d.span ≠ none →
          ∃ item later origin earlier, s.Blames 8 "\n\nf();" d item ∧
            Session.StandsIn ["\n\nf();", first] later origin earlier item := by
  intro new first
  refine ⟨by decide +kernel, fun exit s ran d member placed => ?_⟩
  have begun : new.HasRun [] := .new _ _ _
  have sound : new.Sound [] := Session.sound_new _ _ _
  have reduced : s.config.style = .reduced :=
    congrArg Config.style (begun.traceable.config_of_run sound ran)
  obtain ⟨item, later, origin, earlier, _, _, _, blames, stands, -⟩ :=
    (diagnostics_point_at_their_cause (begun.run 8 first ran) reduced 8 "\n\nf();").2.2 d member
      placed
  exact ⟨item, later, origin, earlier, blames, stands⟩

end Lox
