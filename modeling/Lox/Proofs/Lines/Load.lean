import Lox.Proofs.Lines.Ledger
import Lox.Proofs.Session.Exit

set_option autoImplicit false

/-! Loading sources that pass. A source that passes in a session of its own passes in every session, and
loading it there reports nothing and leaves the machine as it is. -/

namespace Lox

open Text (plainNewlines)
open Token (Clean body ofText)

/-- What a session has given out so far. -/
def Session.ledger (s : Session) : Ledger where
  base := s.reporter.nextBase
  nextNode := s.nextNode
  bindings := s.bindings

/-- Whether programs are executed and not only read. -/
def Config.executes (config : Config) : Bool :=
  !config.stopAfterParse && !config.stopAfterResolve

/-- A session in which a source has been read without an error. -/
def Session.loaded (s : Session) (source : String) (after : Ledger) : Session :=
  { s with
    reporter := s.begun source
    nextNode := after.nextNode
    bindings := if s.config.stopAfterParse then s.bindings else after.bindings }

/-- A source that passes the scanner, the parser and the resolver in a session of its own. -/
def Accepted (source : String) : Bool :=
  Outcome.succeeds (Stage.load source (Session.new {} .unlimited .unlimited))

theorem Token.lexical_eq_nil_iff {base : Nat} {text : List Char} :
    lexical base text = [] ↔ Clean (body base text) := by
  unfold lexical Clean
  rw [scan_eq_body, List.filterMap_eq_nil_iff]
  simp only [Option.map_eq_none_iff, List.mem_append, List.mem_singleton, or_imp, forall_and,
    forall_eq, and_iff_left_iff_imp]
  exact fun _ => rfl

theorem Session.nextBase_begun (s : Session) (source : String) :
    (s.begun source).nextBase =
      s.reporter.nextBase + Text.byteLength (plainNewlines source.toList) + 1 := by
  rw [Session.begun, Reporter.nextBase_addSource, Text.byteLength_ofList]

namespace Stage

variable {s : Session} {source : String} {config : Config}

theorem scan_eq (s : Session) (source : String) : scan source s = .ok (s.tokens source)
    { s with
      reporter := (s.begun source).reportAll
        (Token.lexical s.reporter.nextBase (plainNewlines source.toList)) } := rfl

theorem loadTokens_of_clean (noTokens : config.dumpTokens = false)
    (clean : Clean (body s.reporter.nextBase (plainNewlines source.toList))) :
    loadTokens config source s = .ok (s.tokens source) { s with reporter := s.begun source } := by
  have scanned := scan_eq s source
  rw [Token.lexical_eq_nil_iff.mpr clean] at scanned
  unfold loadTokens dumpIf
  rw [Outcome.bind_of_ok scanned, noTokens]
  rfl

theorem loadProgram_of_parse (noProgram : config.dumpAst = false) {tokens : List Token}
    {program : List Stmt} {nextId : NodeId} (clear : s.reporter.checkpoint = none)
    (read : Grammar.parse tokens s.nextNode = ⟨program, [], none, nextId⟩) :
    loadProgram config tokens s = .ok program { s with nextNode := nextId } := by
  have parsed : parse tokens s = .ok program { s with nextNode := nextId } := by
    unfold parse
    change (do
      modify fun now => { now with nextNode := (Grammar.parse tokens s.nextNode).nextId }
      report (Grammar.parse tokens s.nextNode).diagnostics
      if (Grammar.parse tokens s.nextNode).fatal.isSome then halt
      else return (Grammar.parse tokens s.nextNode).statements : Stage (List Stmt)) s = _
    rw [read]
    rfl
  have checked : checkpoint { s with nextNode := nextId } = .ok () { s with nextNode := nextId } := by
    unfold checkpoint
    dsimp only
    rw [clear]
  unfold loadProgram dumpIf
  rw [Outcome.bind_of_ok parsed, noProgram]
  exact Outcome.bind_of_ok checked

theorem resolve_of_accepted (first : NodeId) {program : List Stmt} {after : Bindings}
    (accepted : Lox.resolve s.bindings program = (none, after)) :
    resolve first program s = .ok () { s with bindings := after } := by
  unfold resolve
  rw [Outcome.bind_of_ok (show (get : Stage Session) s = .ok s s from rfl), accepted]
  rfl

/-- A source that passes is loaded without a report. -/
theorem load_of_reads (noTokens : s.config.dumpTokens = false) (noProgram : s.config.dumpAst = false)
    {program : List Stmt} {after : Ledger} (reads : s.ledger.Reads source program after) :
    load source s =
      .ok (if s.config.executes then some program else none) (s.loaded source after) := by
  have scanned := loadTokens_of_clean noTokens reads.clean
  have read : Grammar.parse (s.tokens source) s.nextNode = ⟨program, [], none, after.nextNode⟩ :=
    reads.parses
  have clear : (s.begun source).checkpoint = none := rfl
  have parsed := loadProgram_of_parse (s := { s with reporter := s.begun source }) noProgram clear read
  unfold load
  rw [Outcome.bind_of_ok (show (get : Stage Session) s = .ok s s from rfl), Outcome.bind_of_ok scanned,
    Outcome.bind_of_ok (show (get : Stage Session) _ = .ok _ _ from rfl), Outcome.bind_of_ok parsed]
  unfold Session.loaded Config.executes
  cases parses : s.config.stopAfterParse with
  | true => rfl
  | false =>
      have resolved := resolve_of_accepted s.nextNode
        (s := { s with reporter := s.begun source, nextNode := after.nextNode }) reads.resolves
      rw [if_neg nofun, Outcome.bind_of_ok resolved]
      cases s.config.stopAfterResolve <;> rfl

/-! ### What has been loaded has passed -/

theorem checkpoint_passes : Ends checkpoint s (fun _ => True) fun _ after =>
    after = s ∧ s.reporter.checkpoint = none := by
  unfold Ends checkpoint
  cases s.reporter.checkpoint with
  | none => exact ⟨rfl, rfl⟩
  | some exit => trivial

theorem loadTokens_passes (noTokens : config.dumpTokens = false) :
    Ends (loadTokens config source) s (fun _ => True) fun tokens after =>
      Clean (body s.reporter.nextBase (plainNewlines source.toList)) ∧ tokens = s.tokens source ∧
        after = { s with reporter := s.begun source } := by
  have scanned : Ends (scan source) s (fun _ => True) fun tokens after => tokens = s.tokens source ∧
      after = { s with
        reporter := (s.begun source).reportAll
          (Token.lexical s.reporter.nextBase (plainNewlines source.toList)) } :=
    ⟨rfl, rfl⟩
  unfold loadTokens dumpIf
  rw [noTokens]
  apply scanned.bind
  rintro _ _ ⟨rfl, rfl⟩
  apply checkpoint_passes.bind
  rintro _ _ ⟨rfl, clear⟩
  have none := (Reporter.checkpoint_eq_none_iff _ _ _).mp clear
  refine ⟨Token.lexical_eq_nil_iff.mp none, rfl, ?_⟩
  rw [none]
  rfl

theorem parse_passes (tokens : List Token) :
    Ends (parse tokens) s (fun _ => True) fun program after =>
      ∃ recorded nextId, Grammar.parse tokens s.nextNode = ⟨program, recorded, none, nextId⟩ ∧
        after = { s with
          nextNode := nextId
          reporter := s.reporter.reportAll (recorded.map (·.diagnostic)) } := by
  have ends : Ends (do
      modify fun now => { now with nextNode := (Grammar.parse tokens s.nextNode).nextId }
      report (Grammar.parse tokens s.nextNode).diagnostics
      if (Grammar.parse tokens s.nextNode).fatal.isSome then halt
      else return (Grammar.parse tokens s.nextNode).statements : Stage (List Stmt)) s (fun _ => True)
      fun program after => ∃ recorded nextId,
        Grammar.parse tokens s.nextNode = ⟨program, recorded, none, nextId⟩ ∧
          after = { s with
            nextNode := nextId
            reporter := s.reporter.reportAll (recorded.map (·.diagnostic)) } := by
    generalize Grammar.parse tokens s.nextNode = read
    obtain ⟨program, recorded, fatal, nextId⟩ := read
    cases fatal with
    | some e => trivial
    | none =>
        refine ⟨recorded, nextId, rfl, ?_⟩
        unfold Grammar.Parse.diagnostics Grammar.Parse.errors
        rw [Option.toList_none, List.append_nil]
  exact ends

theorem loadProgram_passes (noProgram : config.dumpAst = false) {tokens : List Token}
    {old : Reporter} {text : String} (begun : s.reporter = old.addSource text) :
    Ends (loadProgram config tokens) s (fun _ => True) fun program after =>
      Grammar.parse tokens s.nextNode = ⟨program, [], none, after.nextNode⟩ ∧
        after = { s with nextNode := after.nextNode } := by
  unfold loadProgram dumpIf
  rw [noProgram]
  apply (parse_passes tokens).bind
  rintro program _ ⟨recorded, nextId, read, rfl⟩
  apply checkpoint_passes.bind
  rintro _ _ ⟨rfl, clear⟩
  rw [begun] at clear
  have none := List.map_eq_nil_iff.mp ((Reporter.checkpoint_eq_none_iff _ _ _).mp clear)
  rw [none] at read ⊢
  exact ⟨read, rfl⟩

/-- Whatever is loaded has passed. -/
theorem load_passes (noTokens : s.config.dumpTokens = false) (noProgram : s.config.dumpAst = false)
    (resolves : s.config.stopAfterParse = false) :
    Ends (load source) s (fun _ => True) fun _ _ => ∃ program after,
      s.ledger.Reads source program after := by
  unfold load
  apply Ends.get_bind
  apply (loadTokens_passes noTokens).bind
  rintro _ _ ⟨clean, rfl, rfl⟩
  apply Ends.get_bind
  apply (loadProgram_passes noProgram rfl).bind
  rintro program parsed ⟨read, same⟩
  have bindings : parsed.bindings = s.bindings := by rw [same]
  rw [resolves, if_neg nofun]
  have resolved : Ends (resolve s.nextNode program) parsed (fun _ => True) fun _ after =>
      after.reporter.checkpoint = none → (Lox.resolve s.bindings program).1 = none := by
    apply Ends.get_bind
    rw [bindings]
    cases result : Lox.resolve s.bindings program with
    | mk refused after =>
        cases refused with
        | none => exact fun _ => rfl
        | some e =>
            refine Ends.modify_bind _ fun impossible => ?_
            simp [Reporter.checkpoint, Reporter.reportAll, Reporter.report] at impossible
  apply resolved.bind
  intro _ last accepted
  apply checkpoint_passes.bind
  rintro _ _ ⟨rfl, clear⟩
  have passes : ∃ program after, s.ledger.Reads source program after :=
    ⟨program, ⟨_, parsed.nextNode, (Lox.resolve s.bindings program).2⟩, clean, read,
      Prod.ext (accepted clear) rfl, rfl⟩
  split <;> exact passes

end Stage

/-- A source that is accepted in a session of its own passes. -/
theorem Ledger.passes_of_accepted {source : String} (accepted : Accepted source = true) :
    Ledger.Passes source := by
  have passes : Stage.Ends (Stage.load source) (Session.new {} .unlimited .unlimited) (fun _ => True)
      fun _ _ => Ledger.Passes source := Stage.load_passes rfl rfl rfl
  unfold Accepted Outcome.succeeds at accepted
  unfold Stage.Ends at passes
  split at accepted
  · next found after done =>
      rw [done] at passes
      exact passes
  · cases accepted

end Lox
