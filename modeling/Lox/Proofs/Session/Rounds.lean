import Lox.Proofs.Grammar.Orderly
import Lox.Proofs.Session.Presence
import Lox.Proofs.Twin.Undisturbed

set_option autoImplicit false

/-! What runs do to node numbers and bindings. A run uses up the numbers of the nodes that it reads, whether
or not it goes on with them; it changes the bindings only by resolving what it has read, and drops
what a refused program was given. -/

namespace Lox

/-- What became of a program that was read: it was not resolved at all, or it was accepted or refused. -/
inductive Ruling where
  | unresolved
  | accepted
  | refused
deriving Repr, DecidableEq, Inhabited

/-- What a run has read, the numbers that were used up for it, and what became of it. -/
structure Round where
  first : NodeId
  last : NodeId
  program : List Stmt
  ruling : Ruling

/-- The bindings after a run, if those before it are given. -/
def Round.leave (round : Round) (bindings : Bindings) : Bindings :=
  match round.ruling with
  | .unresolved => bindings
  | .accepted => (resolve bindings round.program).2
  | .refused => (resolve bindings round.program).2.forgetFrom round.first

/-- Whether a program that has been read is resolved, and whether it is accepted then. -/
def Session.ruling (s : Session) (config : Config) (tokens : List Token) : Ruling :=
  match Stage.loadProgram config tokens s with
  | .error _ _ => .unresolved
  | .ok program parsed =>
    if config.stopAfterParse then .unresolved
    else
      match (resolve parsed.bindings program).1 with
      | none => .accepted
      | some _ => .refused

/-- What a run of a source does about nodes and bindings. -/
def Session.round (s : Session) (source : String) : Round :=
  match Stage.loadTokens s.config source s with
  | .error _ scanned => ⟨scanned.nextNode, scanned.nextNode, [], .unresolved⟩
  | .ok tokens scanned =>
    let parse := Grammar.parse tokens scanned.nextNode
    ⟨scanned.nextNode, parse.nextId, parse.statements, scanned.ruling s.config tokens⟩

/-- Whatever a session reads is orderly. -/
theorem Session.round_orderly (s : Session) (source : String) :
    Grammar.Tree.stmts (s.round source).program := by
  unfold Session.round
  cases Stage.loadTokens s.config source s with
  | error halt scanned => trivial
  | ok tokens scanned => exact Grammar.parse_orderly tokens scanned.nextNode

/-- Nodes and bindings are as they are after a certain run. -/
structure Session.After (s : Session) (round : Round) (after : Session) : Prop where
  nextNode : after.nextNode = round.last
  bindings : after.bindings = round.leave s.bindings

namespace Session

variable {s after last : Session} {round : Round}

theorem After.shown (done : s.After round after) (shown : after.Shown last) : s.After round last :=
  ⟨shown.nextNode.trans done.nextNode, shown.bindings.trans done.bindings⟩

theorem After.since {scanned : Session} (done : scanned.After round after) (shown : s.Shown scanned) :
    s.After round after :=
  ⟨done.nextNode, done.bindings.trans (by rw [shown.bindings])⟩

end Session

namespace Stage

variable {s : Session}

/-- To read a program uses up the numbers of its nodes, and does not touch the bindings. -/
theorem loadProgram_reads (config : Config) (tokens : List Token) :
    Ends (loadProgram config tokens) s
      (fun after => after.nextNode = (Grammar.parse tokens s.nextNode).nextId ∧
        after.bindings = s.bindings)
      fun program after => (after.nextNode = (Grammar.parse tokens s.nextNode).nextId ∧
        after.bindings = s.bindings) ∧ program = (Grammar.parse tokens s.nextNode).statements := by
  let read : Session := { s with nextNode := (Grammar.parse tokens s.nextNode).nextId }
  have parsed : Ends (parse tokens) s read.Shown fun program after => read.Shown after ∧
      program = (Grammar.parse tokens s.nextNode).statements := by
    refine Ends.get_bind (Ends.modify_bind _ ?_)
    refine (report_ends _).bind fun _ after shown => ?_
    split
    · exact shown
    · exact ⟨shown, rfl⟩
  have whole : Ends (loadProgram config tokens) s read.Shown fun program after =>
      read.Shown after ∧ program = (Grammar.parse tokens s.nextNode).statements := by
    unfold loadProgram
    refine parsed.bind fun program after done => ?_
    refine ((dumpIf_ends _ _).imp (fun _ => done.1.trans) fun _ _ => done.1.trans).bind
      fun _ listed shown => ?_
    refine (checkpoint_ends.imp (fun _ => shown.trans) fun _ _ => shown.trans).bind
      fun _ checked shown => ?_
    exact ⟨shown, done.2⟩
  exact whole.imp (fun _ shown => ⟨shown.nextNode, shown.bindings⟩)
    fun _ _ done => ⟨⟨done.1.nextNode, done.1.bindings⟩, done.2⟩

/-- A program is resolved in the bindings that were there before; one that is refused is forgotten. -/
theorem resolve_leaves_bindings (first : NodeId) (program : List Stmt) :
    let ruling : Ruling := match (Lox.resolve s.bindings program).1 with
      | none => .accepted
      | some _ => .refused
    let after := Round.leave ⟨first, s.nextNode, program, ruling⟩ s.bindings
    Ends (resolve first program) s (Session.Shown { s with bindings := after }) fun _ =>
      Session.Shown { s with bindings := after } := by
  refine Ends.get_bind ?_
  unfold Round.leave
  cases result : Lox.resolve s.bindings program with
  | mk refusal bindings =>
    cases refusal with
    | none => exact Session.Shown.refl _
    | some e => exact Ends.modify_bind _ (report_ends _)

/-- After loading its tokens, a source leaves nodes and bindings as its round says. -/
theorem program_rounds (config : Config) (tokens : List Token) :
    let parse := Grammar.parse tokens s.nextNode
    let round : Round := ⟨s.nextNode, parse.nextId, parse.statements, s.ruling config tokens⟩
    Ends (do
      let program ← loadProgram config tokens
      if config.stopAfterParse then
        return none
      else
        resolve s.nextNode program
        checkpoint
        if config.stopAfterResolve then return none else return some program) s
      (s.After round) fun _ => s.After round := by
  intro parse round
  have reads := loadProgram_reads (s := s) config tokens
  have unresolved (ruled : s.ruling config tokens = .unresolved) : round.leave s.bindings = s.bindings := by
    unfold Round.leave
    simp only [round, ruled]
  unfold Ends at reads ⊢
  cases result : loadProgram config tokens s with
  | error halt after =>
    rw [result] at reads
    rw [Outcome.bind_of_error result]
    have ruled : s.ruling config tokens = .unresolved := by
      unfold Session.ruling
      rw [result]
    exact ⟨reads.1, reads.2.trans (unresolved ruled).symm⟩
  | ok program parsed =>
    rw [result] at reads
    rw [Outcome.bind_of_ok result]
    obtain ⟨⟨nextNode, bindings⟩, rfl⟩ := reads
    cases stops : config.stopAfterParse with
    | true =>
      have ruled : s.ruling config tokens = .unresolved := by
        unfold Session.ruling
        rw [result]
        simp only [stops, if_true]
      exact ⟨nextNode, bindings.trans (unresolved ruled).symm⟩
    | false =>
      have left : Round.leave ⟨s.nextNode, parsed.nextNode, parse.statements,
          match (Lox.resolve parsed.bindings parse.statements).1 with
          | none => .accepted
          | some _ => .refused⟩ parsed.bindings = round.leave s.bindings := by
        unfold Round.leave
        simp only [round, Session.ruling, result, stops, bindings, Bool.false_eq_true, if_false]
        rfl
      have resolves := resolve_leaves_bindings (s := parsed) s.nextNode parse.statements
      dsimp only at resolves
      rw [left] at resolves
      have done : s.After round { parsed with bindings := round.leave s.bindings } := ⟨nextNode, rfl⟩
      refine (resolves.imp (fun _ => done.shown) fun _ _ => done.shown).bind fun _ resolved done => ?_
      refine (checkpoint_ends.imp (fun _ => done.shown) fun _ _ => done.shown).bind
        fun _ checked done => ?_
      split <;> exact done

/-- Loading a source leaves nodes and bindings as its round says. -/
theorem load_rounds (source : String) :
    Ends (load source) s (s.After (s.round source)) fun _ => s.After (s.round source) := by
  have scans := loadTokens_ends (s := s) s.config source
  unfold Ends at scans
  refine Ends.get_bind ?_
  unfold Session.round
  cases result : loadTokens s.config source s with
  | error halt scanned =>
    rw [result] at scans
    unfold Ends
    rw [Outcome.bind_of_error result]
    exact ⟨rfl, scans.bindings⟩
  | ok tokens scanned =>
    rw [result] at scans
    have loads := program_rounds (s := scanned) s.config tokens
    have whole := loads.imp (fun after done => done.since scans.1) fun _ after done => done.since scans.1
    unfold Ends at whole ⊢
    rw [Outcome.bind_of_ok result]
    exact whole

/-- A program that is refused is reported. -/
theorem resolve_reports (first : NodeId) (program : List Stmt) :
    Ends (resolve first program) s (fun _ => True) fun _ after =>
      (Lox.resolve s.bindings program).1 = none ∨ after.reporter.checkpoint ≠ none := by
  refine Ends.get_bind ?_
  cases Lox.resolve s.bindings program with
  | mk refusal bindings =>
    cases refusal with
    | none => exact .inl rfl
    | some e => exact .inr (by simp [Reporter.checkpoint, Reporter.reportAll, Reporter.report])

/-- What is to be executed after loading has been accepted. -/
theorem program_accepts (config : Config) (tokens : List Token) :
    Ends (do
      let program ← loadProgram config tokens
      if config.stopAfterParse then
        return none
      else
        resolve s.nextNode program
        checkpoint
        if config.stopAfterResolve then return none else return some program) s
      (fun _ => True) fun found _ => ∀ program, found = some program →
        (Grammar.parse tokens s.nextNode).statements = program ∧ s.ruling config tokens = .accepted := by
  have reads := loadProgram_reads (s := s) config tokens
  unfold Ends at reads ⊢
  unfold Session.ruling
  cases result : loadProgram config tokens s with
  | error halt after =>
    rw [Outcome.bind_of_error result]
    trivial
  | ok program parsed =>
    rw [result] at reads
    rw [Outcome.bind_of_ok result]
    obtain ⟨-, rfl⟩ := reads
    change Ends (if config.stopAfterParse then return none else _) parsed _ _
    dsimp only
    split
    · exact fun _ impossible => nomatch impossible
    · refine (resolve_reports s.nextNode _).bind fun _ resolved reported => ?_
      have checked : Ends checkpoint resolved (fun _ => True) fun _ _ =>
          (Lox.resolve parsed.bindings (Grammar.parse tokens s.nextNode).statements).1 = none := by
        unfold Ends checkpoint
        cases clean : resolved.reporter.checkpoint with
        | none => exact reported.resolve_right fun other => other clean
        | some exit => trivial
      refine checked.bind fun _ last accepted => ?_
      split
      · exact fun _ impossible => nomatch impossible
      · intro program same
        cases same
        rw [accepted]
        exact ⟨rfl, rfl⟩

theorem load_accepts (source : String) :
    Ends (load source) s (fun _ => True) fun found _ => ∀ program, found = some program →
      (s.round source).program = program ∧ (s.round source).ruling = .accepted := by
  refine Ends.get_bind ?_
  unfold Ends Session.round
  cases result : loadTokens s.config source s with
  | error halt scanned =>
    rw [Outcome.bind_of_error result]
    trivial
  | ok tokens scanned =>
    rw [Outcome.bind_of_ok result]
    exact program_accepts s.config tokens

/-- To execute a program changes neither nodes nor bindings. -/
theorem execute_rounds {start : Session} {round : Round} (done : start.After round s) (bound : Nat)
    (program : List Stmt) :
    Ends (execute bound program) s (start.After round) fun _ => start.After round := by
  unfold Ends execute
  cases result : Exec.program (Exec.context s.bindings s.config.maxCallDepth bound) program
      s.machine with
  | ok ended machine =>
    simp only [result]
    exact ⟨done.nextNode, done.bindings⟩
  | error stop machine =>
    cases stop <;> simp only [result] <;> exact ⟨done.nextNode, done.bindings⟩

/-- A run leaves nodes and bindings as its round says, whatever it comes to. -/
theorem run_rounds (bound : Nat) (source : String) :
    Ends (run bound source) s (s.After (s.round source)) fun _ => s.After (s.round source) := by
  rw [run_eq]
  refine (load_rounds source).bind fun found loaded done => ?_
  cases found with
  | none => exact done
  | some program =>
    refine (execute_rounds done bound program).bind fun _ executed done => ?_
    exact checkpoint_ends.imp (fun _ => done.shown) fun _ _ => done.shown

end Stage

namespace Session

variable {s : Session}

theorem after_round {after : Session} {bound : Nat} {source : String} {exit : Option Exit}
    (ran : s.run bound source = some (exit, after)) : s.After (s.round source) after :=
  of_run _ (Stage.run_rounds bound source) ran

/-- What a round reads is numbered from the next free number on, and resolving it takes no slot back. -/
structure Reads (s : Session) (round : Round) : Prop where
  first : round.first = s.nextNode
  fit : Grammar.Fit.stmts round.first round.last round.program
  slots : s.bindings.nextSlot ≤ (resolve s.bindings round.program).2.nextSlot
  accepted : round.ruling = .accepted → (resolve s.bindings round.program).1 = none

theorem accepted_of_ruling {config : Config} {tokens : List Token}
    (accepted : s.ruling config tokens = .accepted) :
    (resolve s.bindings (Grammar.parse tokens s.nextNode).statements).1 = none := by
  have reads := Stage.loadProgram_reads (s := s) config tokens
  unfold Stage.Ends at reads
  unfold ruling at accepted
  cases result : Stage.loadProgram config tokens s with
  | error halt after =>
    rw [result] at accepted
    cases accepted
  | ok program parsed =>
    rw [result] at accepted reads
    obtain ⟨⟨-, bindings⟩, rfl⟩ := reads
    dsimp only at accepted
    rw [bindings] at accepted
    split at accepted
    · cases accepted
    · split at accepted
      · next clean => exact clean
      · cases accepted

theorem round_reads (below : s.bindings.Below s.nextNode) (source : String) :
    s.Reads (s.round source) := by
  have scans := Stage.loadTokens_ends (s := s) s.config source
  unfold Stage.Ends at scans
  unfold Session.round
  cases result : Stage.loadTokens s.config source s with
  | error halt scanned =>
    rw [result] at scans
    exact ⟨scans.nextNode, ⟨trivial, Nat.le_refl _, .nil⟩, Nat.le_refl _, nofun⟩
  | ok tokens scanned =>
    rw [result] at scans
    obtain ⟨shown, base, text, rfl⟩ := scans
    rw [← shown.nextNode, ← shown.bindings] at below
    refine ⟨shown.nextNode, Grammar.parse_fit (Token.ofText_spelled base text) scanned.nextNode, ?_,
      fun accepted => ?_⟩
    · rw [← shown.bindings]
      exact resolve_nextSlot (Token.ofText_twin text fun _ _ => rfl) (Token.ofText_ends base text)
        below
    · rw [← shown.bindings]
      exact accepted_of_ruling accepted

end Session
end Lox
