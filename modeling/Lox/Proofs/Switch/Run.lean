import Lox.Proofs.Depth.Agreement
import Lox.Proofs.Switch.Names

set_option autoImplicit false

/-! Sessions beside sessions that run switches directly. Whatever the runs, both end alike: with the same
exits, output and diagnostics, and with machines that differ in hidden variables alone. -/

namespace Lox

/-! ### What is loaded -/

namespace Machine

variable {known : Site → Prop} {veiled : Slot → Prop} {m n : Machine}

theorem quiet_withFrames (frames : Array Frame) : Quiet (·.withFrames frames) :=
  ⟨fun _ => rfl, fun _ _ => rfl⟩

theorem AlikeBut.mono {more : Slot → Prop} (alike : m.AlikeBut veiled n)
    (wider : ∀ slot, veiled slot → more slot) : m.AlikeBut more n :=
  ⟨alike.rest, alike.size, fun id slot unveiled =>
    alike.cells id slot fun isVeiled => unveiled (wider slot isVeiled)⟩

theorem AlikeBut.reset (alike : m.AlikeBut veiled n) : m.reset.AlikeBut veiled n.reset := by
  refine ⟨?_, alike.size, alike.cells⟩
  rw [alike.rest]
  rfl

theorem Stands.mono {more : Site → Prop} (stands : m.Stands known)
    (wider : ∀ site, known site → more site) : m.Stands more := by
  intro id
  obtain ⟨role, path, sites, alike⟩ := stands id
  exact ⟨role, path, fun site member => wider site (sites site member), alike⟩

/-- A machine without functions. -/
theorem stands_new (output : Sink) : (Machine.new output).Stands known :=
  fun _ => ⟨.function, [], nofun, .mk .none .nil .nil⟩

end Machine

namespace Session

variable {rounds : List Round} {s : Session} {round : Round}

/-- The program of every round is code as it is read. -/
theorem round_plain (s : Session) (source : String) :
    Stmts.Like .plain (s.round source).program (s.round source).program := by
  have scans := Stage.loadTokens_ends (s := s) s.config source
  unfold Stage.Ends at scans
  unfold Session.round
  cases result : Stage.loadTokens s.config source s with
  | error halt scanned => exact .nil
  | ok tokens scanned =>
    rw [result] at scans
    obtain ⟨-, base, text, rfl⟩ := scans
    exact Grammar.parse_plain (Token.ofText_plain base text) (Token.ofText_ends base text) _

/-- Hidden variables keep their slots when another program is resolved. -/
theorem Tables.veiled_later (tables : s.Tables rounds) (reads : s.Reads round) {slot : Slot}
    (isVeiled : Veiled rounds s.bindings slot) :
    Veiled (rounds ++ [round]) (round.leave s.bindings) slot := by
  obtain ⟨site, id, name, accepts, declares, notPlain, known⟩ := isVeiled
  refine ⟨site, id, name, accepts.later round, declares, notPlain, ?_⟩
  exact (reads.step tables.below).grows (reads.first ▸ tables.below) id slot known

end Session

/-! ### Running directly -/

namespace Direct

/-- Executes a program directly, if there is one. -/
def finish (bound : Nat) : Option (List Stmt) → Stage Unit
  | none => return ()
  | some statements => fun s =>
    Stage.conclude (program (context s.bindings s.config.maxCallDepth bound) statements s.machine) s

/-- A run that loads a source as ever and executes its program directly. -/
def stage (bound : Nat) (source : String) : Stage Unit :=
  Stage.load source >>= finish bound

def run (s : Session) (bound : Nat) (source : String) : Option (Option Exit × Session) :=
  Session.ofStage (stage bound source s)

/-- Two sessions that have accepted the same programs, and differ in hidden variables alone. -/
structure Alike (rounds : List Round) (s t : Session) : Prop where
  rest : t = { s with machine := t.machine }
  machine : s.machine.AlikeBut (Session.Veiled rounds s.bindings) t.machine
  stands : s.machine.Stands (Session.Accepts rounds)

/-- Two sessions after one history of runs: in the first as they are, in the second directly. -/
inductive Reached : List Round → Session → Session → Prop
  | new (config : Config) (output errors : Sink) :
      Reached [] (Session.new config output errors) (Session.new config output errors)
  | run {rounds : List Round} {s t after last : Session} {exit exit' : Option Exit} (bound : Nat)
      (source : String) (before : Reached rounds s t) (ran : s.run bound source = some (exit, after))
      (ranDirectly : run t bound source = some (exit', last)) :
      Reached (rounds ++ [s.round source]) after last
  | resetScopes {rounds : List Round} {s t : Session} (before : Reached rounds s t) :
      Reached rounds s.resetScopes t.resetScopes

theorem Reached.recalls {rounds : List Round} {s t : Session} (reached : Reached rounds s t) :
    s.Recalls rounds := by
  induction reached with
  | new config output errors => exact .new config output errors
  | run bound source before ran ranDirectly recalls => exact recalls.run bound source ran
  | resetScopes before recalls => exact recalls.resetScopes

variable {rounds : List Round} {s t : Session}

theorem Alike.amend (alike : Alike rounds s t) :
    t = s.amend id (·.withFrames t.machine.environment.frames) := by
  refine alike.rest.trans ?_
  exact congrArg (fun machine => { s with machine := machine }) alike.machine.rest

/-- How two runs end: on machines that are alike, whatever else the first has come to. -/
structure Ends (rounds : List Round) (bindings : Bindings) (one two : EStateM.Result Halt Session Unit) :
    Prop where
  frames : ∃ frames, two = Outcome.onState (·.amend id (·.withFrames frames)) one ∧
    (Outcome.state one).machine.AlikeBut (Session.Veiled rounds bindings)
      ((Outcome.state one).machine.withFrames frames)
  stands : (Outcome.state one).machine.Stands (Session.Accepts rounds)

/-- Both runs have an answer or none, and the same one. -/
theorem Ends.answers {one two : EStateM.Result Halt Session Unit}
    (ends : Ends rounds (Outcome.state one).bindings one two) :
    Option.Rel (fun here there => here.1 = there.1 ∧ Alike rounds here.2 there.2)
      (Session.ofStage one) (Session.ofStage two) := by
  obtain ⟨⟨frames, rfl, machine⟩, stands⟩ := ends
  cases one with
  | ok _ last => exact .some ⟨rfl, rfl, machine, stands⟩
  | error halt last =>
    cases halt with
    | exit exit => exact .some ⟨rfl, rfl, machine, stands⟩
    | exhausted => exact .none

/-- A program that has been accepted ends alike on machines that are alike. -/
theorem program_ends (tables : s.Tables rounds) {source : String} (reads : s.Reads (s.round source))
    {loaded : Session} {frames : Array Frame} (done : s.After (s.round source) loaded)
    (accepted : (s.round source).ruling = .accepted)
    (alike : loaded.machine.AlikeBut
      (Session.Veiled (rounds ++ [s.round source]) ((s.round source).leave s.bindings))
      (loaded.machine.withFrames frames))
    (stands : loaded.machine.Stands (Session.Accepts (rounds ++ [s.round source]))) (bound : Nat) :
    Ends (rounds ++ [s.round source]) ((s.round source).leave s.bindings)
      (Stage.conclude (Exec.program (Exec.context loaded.bindings loaded.config.maxCallDepth bound)
        (s.round source).program loaded.machine) loaded)
      (Stage.conclude (program (context loaded.bindings loaded.config.maxCallDepth bound)
        (s.round source).program (loaded.machine.withFrames frames))
          (loaded.amend id (·.withFrames frames))) := by
  have veils := (tables.step reads done).veils
  rw [done.bindings] at veils ⊢
  have sites : ∀ site ∈ Sites.program (s.round source).program,
      Session.Accepts (rounds ++ [s.round source]) site :=
    fun site inside => ⟨_, List.mem_append_right _ List.mem_cons_self, accepted, inside⟩
  have ended := Exec.program_beside veils loaded.config.maxCallDepth bound (s.round_plain source) sites
    _ _ alike stands
  generalize Exec.program _ _ loaded.machine = one at ended ⊢
  generalize program _ _ (loaded.machine.withFrames frames) = two at ended ⊢
  obtain ⟨last, same, moved, kept⟩ : ∃ last, two = Outcome.onState (·.withFrames last) one ∧
      (Outcome.state one).AlikeBut _ ((Outcome.state one).withFrames last) ∧
        (Outcome.state one).Stands _ := by
    cases ended with
    | ok moves =>
      exact ⟨_, congrArg _ moves.alike.rest, moves.alike.rest ▸ moves.alike, moves.stands⟩
    | error moves =>
      exact ⟨_, congrArg _ moves.alike.rest, moves.alike.rest ▸ moves.alike, moves.stands⟩
  have concluded : Stage.conclude two (loaded.amend id (·.withFrames frames)) =
      Stage.conclude two (loaded.amend id (·.withFrames last)) := by
    cases two with
    | ok _ machine => rfl
    | error stop machine => cases stop <;> rfl
  rw [concluded, same, Stage.conclude_amend]
  constructor
  · refine ⟨last, rfl, ?_⟩
    rw [Stage.machine_conclude]
    exact moved
  · rw [Stage.machine_conclude]
    exact kept

theorem stage_ends (tables : s.Tables rounds) (alike : Alike rounds s t) (bound : Nat) (source : String) :
    Ends (rounds ++ [s.round source]) ((s.round source).leave s.bindings) (Stage.run bound source s)
      (stage bound source t) := by
  have reads := Session.round_reads tables.below source
  have machine := alike.machine.mono fun slot => tables.veiled_later reads
  have stands := alike.stands.mono fun site accepts => Session.Accepts.later accepts (s.round source)
  have same := alike.amend
  generalize t.machine.environment.frames = frames at same
  subst same
  have loads : Stage.load source (s.amend id (·.withFrames frames)) =
      Outcome.onState (·.amend id (·.withFrames frames)) (Stage.load source s) :=
    (Stage.heedless_load (Machine.quiet_withFrames frames) source).same s
  have loaded := ((Stage.load_writes (s := s) source).and (Stage.load_rounds source)).and
    (Stage.load_accepts source)
  have kept {after : Session} (wrote : s.Wrote after) :
      after.machine.AlikeBut
          (Session.Veiled (rounds ++ [s.round source]) ((s.round source).leave s.bindings))
          (after.machine.withFrames frames) ∧
        after.machine.Stands (Session.Accepts (rounds ++ [s.round source])) := by
    obtain ⟨output, same⟩ := wrote
    rw [same]
    exact ⟨⟨rfl, machine.size, machine.cells⟩, stands.of_functions rfl⟩
  unfold stage
  rw [Stage.run_eq]
  unfold Stage.Ends at loaded
  cases result : Stage.load source s with
  | error halt after =>
    rw [result] at loads loaded
    rw [Outcome.bind_of_error result, Outcome.bind_of_error loads]
    exact ⟨⟨frames, rfl, (kept loaded).1⟩, (kept loaded).2⟩
  | ok found after =>
    rw [result] at loads loaded
    rw [Outcome.bind_of_ok result, Outcome.bind_of_ok loads]
    obtain ⟨⟨wrote, done⟩, accepts⟩ := loaded
    cases found with
    | none => exact ⟨⟨frames, rfl, (kept wrote).1⟩, (kept wrote).2⟩
    | some statements =>
      obtain ⟨rfl, accepted⟩ := accepts statements rfl
      rw [Stage.finish_execute]
      exact program_ends tables reads done accepted (kept wrote).1 (kept wrote).2 bound

theorem run_alike (tables : s.Tables rounds) (alike : Alike rounds s t) (bound : Nat) (source : String) :
    Option.Rel (fun here there => here.1 = there.1 ∧ Alike (rounds ++ [s.round source]) here.2 there.2)
      (s.run bound source) (run t bound source) := by
  have ends := stage_ends tables alike bound source
  have done := Stage.run_rounds (s := s) bound source
  have bindings : (Outcome.state (Stage.run bound source s)).bindings =
      (s.round source).leave s.bindings := by
    unfold Stage.Ends at done
    cases result : Stage.run bound source s <;> exact (result ▸ done).bindings
  rw [← bindings] at ends
  rw [Session.run_eq_ofStage]
  exact ends.answers

theorem Reached.alike (reached : Reached rounds s t) : Alike rounds s t := by
  induction reached with
  | new config output errors => exact ⟨rfl, .refl _, Machine.stands_new output⟩
  | run bound source before ran ranDirectly alike =>
    have both := run_alike before.recalls.tables alike bound source
    rw [ran, ranDirectly] at both
    cases both with
    | some same => exact same.2
  | @resetScopes rounds s t before alike =>
    refine ⟨?_, alike.machine.reset, alike.stands.of_functions rfl⟩
    rw [alike.rest]
    rfl

end Direct

open Grammar.Derives (Arms Expression IsDefault Passes Switch switchImage)

/-- A switch does what it says, and the hidden variable for which it is written out is in nobody's way.
Whatever sources a session runs, it ends like one in which each switch evaluates its subject once and
compares its value with one arm after the other, with the same exits, output and diagnostics, and the
two differ in hidden variables alone. So does each switch of an accepted program by itself, on whatever
machine its code may run. Blocks that are no switches are run as blocks. And names mean what they mean
if hidden variables are left out. -/
theorem switches_keep_their_meaning {rounds : List Round} {s t : Session}
    (reached : Direct.Reached rounds s t) :
    Direct.Alike rounds s t ∧
    (∀ bound source, Option.Rel
      (fun here there => here.1 = there.1 ∧ Direct.Alike (rounds ++ [s.round source]) here.2 there.2)
      (s.run bound source) (Direct.run t bound source)) ∧
    (∀ stop p q statement subject arms default, stop.isEnd = true → (∀ u ∈ stop :: p.tokens, u.Plain) →
      Switch stop p statement subject arms default q →
        (∀ ctx, Direct.stmt ctx statement = Direct.switch ctx subject arms default) ∧
        ∀ path limit bound, (∀ site ∈ Sites.stmt path statement, Session.Accepts rounds site) →
          Exec.Beside (Session.Accepts rounds) (Session.Veiled rounds s.bindings)
            (Exec.stmt (Exec.context s.bindings limit bound) statement)
            (Direct.switch (Direct.context s.bindings limit bound) subject arms default)) ∧
    (∀ ctx body, (∀ id name initial rest, body = .var id name initial :: rest → name.Plain) →
      Direct.stmt ctx (.block body) = do Exec.within (← Exec.capture) (Direct.stmts ctx body)) ∧
    (∀ site, Session.Accepts rounds site → ∀ id name, name.Plain →
      (site.mention.named? = some (id, name) →
        s.bindings.Clear (Session.Veiled rounds s.bindings) id) ∧
      (site.mention = .reference id name ∨ site.mention = .this id name →
        s.bindings.Follows id (site.path.visible? name.lexeme))) ∧
    ∀ base text, ∀ u ∈ Token.ofText base text, u.Plain := by
  have tables := reached.recalls.tables
  refine ⟨reached.alike, Direct.run_alike tables reached.alike, ?_, fun ctx body => Direct.stmt_block ctx,
    ?_, Token.ofText_plain⟩
  · intro stop p q statement subject arms default ends plain written
    have direct (ctx : Context) := Direct.stmt_of_switch ctx ends plain written
    refine ⟨direct, fun path limit bound sites => ?_⟩
    have veils : Veils _ (Exec.context s.bindings limit bound).bindings _ := tables.veils
    rw [← direct]
    exact Exec.stmt_beside veils (Exec.call_beside tables.veils limit bound)
      (Grammar.statement_plain ends plain written.statement).1 path sites
  · rintro ⟨path, mention⟩ accepts id name plain
    have bound := tables.veils.bound _ accepts
    refine ⟨fun mentions => tables.veils.clear accepts mentions plain, fun refers => ?_⟩
    rcases refers with rfl | rfl
    · exact Bindings.Means.follows bound plain
    · exact Bindings.Means.follows bound plain

/-- A default arm between two others, whose action holds a function with another switch; and a default arm
before another, as it is derived. -/
theorem switches_keep_their_meaning_with_default_between :
    let start := Session.new {} .unlimited .unlimited
    let source :=
      "fun f(x) { switch (x) { 1 => return 4; _ => { fun g() { switch (x) { 2 => return 5; } } return g(); } 3 => print x; } } " ++
        "print f(1); print f(2); f(3);"
    let name (text : String) : Token := ⟨.identifier, text, 0⟩
    let keyword : Token := ⟨.keyword .switchWord, "switch", 0⟩
    let arrow : Token := ⟨.symbol .equalGreater, "=>", 0⟩
    let printWord : Token := ⟨.keyword .printWord, "print", 0⟩
    let semicolon : Token := ⟨.symbol .semicolon, ";", 0⟩
    let tokens := [keyword, ⟨.symbol .leftParen, "(", 0⟩, name "a", ⟨.symbol .rightParen, ")", 0⟩,
      ⟨.symbol .leftBrace, "\x7b", 0⟩, name "_", arrow, printWord, name "b", semicolon, name "c", arrow,
      printWord, name "d", semicolon, ⟨.symbol .rightBrace, "\x7d", 0⟩]
    let subject := Expr.variable 0 (name "a")
    let arms := [(Expr.variable 4 (name "c"), Stmt.print (.variable 5 (name "d")))]
    let default := some (Stmt.print (.variable 3 (name "b")))
    let written := switchImage 1 keyword subject 6 arms default
    (start.run 16 source).isSome = true ∧
    ((Direct.run start 16 source).map fun ran => ran.2.machine.output.accepted) =
      some "4\n5\n3\n".toUTF8 ∧
    (∀ exit after, start.run 16 source = some (exit, after) →
      ∃ exit' last, Direct.run start 16 source = some (exit', last) ∧ exit = exit' ∧
        after.machine.output = last.machine.output) ∧
    Switch (Token.atEnd 0) ⟨tokens, 0⟩ written subject arms default ⟨[], 7⟩ ∧
    ∀ ctx, Direct.stmt ctx written = Direct.switch ctx subject arms default := by
  intro start source name keyword arrow printWord semicolon tokens subject arms default written
  have kept := switches_keep_their_meaning (.new {} .unlimited .unlimited)
  have passes {terminal : Terminal} {token : Token} {rest : List Token} {id : NodeId}
      (found : token.terminal? = some terminal) :
      Passes terminal ⟨token :: rest, id⟩ token ⟨rest, id⟩ := ⟨found, rfl⟩
  have plain : ∀ u ∈ Token.atEnd 0 :: tokens, u.Plain := by
    have free : ∀ u ∈ Token.atEnd 0 :: tokens, '#' ∉ u.lexeme.toList := by decide
    intro u member
    exact Token.plain_of_hash String.ofList_toList.symm fun _ => free u member
  have first : Expression (Token.atEnd 0) ⟨tokens.drop 2, 0⟩ subject ⟨tokens.drop 3, 1⟩ := rfl
  have underscore : Expression (Token.atEnd 0) ⟨tokens.drop 5, 2⟩ (.variable 2 (name "_"))
      ⟨tokens.drop 6, 3⟩ := rfl
  have second : Expression (Token.atEnd 0) ⟨tokens.drop 8, 3⟩ (.variable 3 (name "b"))
      ⟨tokens.drop 9, 4⟩ := rfl
  have pattern : Expression (Token.atEnd 0) ⟨tokens.drop 10, 4⟩ (.variable 4 (name "c"))
      ⟨tokens.drop 11, 5⟩ := rfl
  have third : Expression (Token.atEnd 0) ⟨tokens.drop 13, 5⟩ (.variable 5 (name "d"))
      ⟨tokens.drop 14, 6⟩ := rfl
  have ordinary : ¬IsDefault (.variable 4 (name "c")) := by
    rintro ⟨id, other, same, spelled⟩
    cases same
    exact absurd spelled (by decide)
  have last : Arms (Token.atEnd 0) ⟨tokens.drop 10, 4⟩ arms none ⟨tokens.drop 15, 6⟩ :=
    .arm pattern ordinary (passes rfl) (.print (passes rfl) third (passes rfl)) (.nil _)
  have choices : Arms (Token.atEnd 0) ⟨tokens.drop 5, 2⟩ arms default ⟨tokens.drop 15, 6⟩ :=
    .default underscore ⟨2, name "_", rfl, rfl⟩ (passes rfl) (.print (passes rfl) second (passes rfl)) last
  have derived : Switch (Token.atEnd 0) ⟨tokens, 0⟩ written subject arms default ⟨[], 7⟩ :=
    .mk (passes rfl) (passes rfl) first (passes rfl) ⟨rfl, rfl⟩ (passes rfl) choices (passes rfl)
  refine ⟨by decide +kernel, by decide +kernel, fun exit after ran => ?_, derived,
    (kept.2.2.1 (Token.atEnd 0) _ _ written subject arms default rfl plain derived).1⟩
  have both := kept.2.1 16 source
  rw [ran] at both
  cases directly : Direct.run start 16 source with
  | none =>
    rw [directly] at both
    cases both
  | some found =>
    rw [directly] at both
    cases both with
    | some same => exact ⟨found.1, found.2, rfl, same.1, (congrArg (·.output) same.2.machine.rest).symm⟩

end Lox
