import Lox.Proofs.Depth.Agreement
import Lox.Proofs.Loop.Code
import Lox.Proofs.Switch.Names

set_option autoImplicit false

/-! Loops in the programs of a session. Every machine that a session comes to mirrors itself, so its loops run
on it as they are written. -/

namespace Lox

/-- A machine all of whose chains pass frames that it has, and whose functions are orderly. -/
def Machine.MirrorsItself (m : Machine) : Prop :=
  ∃ p, m.Mirrors ClassDecl.TellsInitializer p m

namespace Machine.MirrorsItself

variable {m : Machine}

theorem new (output : Sink) : (Machine.new output).MirrorsItself := by
  have noFunction (id : FunctionId) : (Machine.new output).functionAt id = default := rfl
  have room {i j : Nat} (pair : i = 0 ∧ j = 0) : i < 1 ∧ j < 1 := by omega
  refine ⟨⟨fun i j => i = 0 ∧ j = 0, fun _ => False, fun _ => False⟩, ?_, ?_, ⟨rfl, rfl⟩, ⟨rfl, rfl⟩, rfl, rfl,
    ?_, rfl, rfl, rfl, rfl⟩
  · refine ⟨?_, fun _ => ⟨id, id⟩, room, nofun, nofun, ?_, nofun, nofun⟩
    · rintro i j k l ⟨rfl, rfl⟩ ⟨rfl, rfl⟩
      exact Iff.rfl
    · rintro i j ⟨rfl, rfl⟩
      rfl
  · exact .both ⟨rfl, rfl⟩ .nil
  · intro id
    rw [noFunction]
    exact ⟨rfl, rfl, .both ⟨rfl, rfl⟩ .nil, trivial⟩

theorem writes {output : Sink} (itself : m.MirrorsItself) : MirrorsItself { m with output := output } := by
  obtain ⟨p, mirrors⟩ := itself
  exact ⟨p, mirrors.accept output⟩

theorem reset (itself : m.MirrorsItself) (rest : m.AtRest) : m.reset.MirrorsItself := by
  rw [rest.reset]
  exact itself

/-- A program that is orderly leaves a machine that mirrors itself. -/
theorem program (itself : m.MirrorsItself) (rest : m.AtRest) {statements : List Stmt}
    (orderly : Grammar.Tree.stmts statements) (bindings : Bindings) (limit bound : Nat) :
    (Outcome.state (Exec.program (Exec.context bindings limit bound) statements m)).MirrorsItself := by
  obtain ⟨p, mirrors⟩ := itself
  have opens : p.both m.environment.current.frame m.environment.current.frame := by
    rw [rest.current, mirrors.root.1]
    exact mirrors.origin
  have ran : Exec.Mirrored ClassDecl.TellsInitializer p m m
      (Exec.stmts (Exec.context bindings limit bound) statements m)
      (Exec.stmts (Exec.context bindings limit bound) statements m) :=
    Loop.stmts_concurs (Exec.context_concurs bindings limit bound) orderly mirrors opens
  rw [Exec.machine_program]
  generalize Exec.stmts _ _ m = result at ran ⊢
  cases ran with
  | ok later last => exact ⟨_, last⟩
  | error later last => exact ⟨_, last⟩

end Machine.MirrorsItself

namespace Stage

variable {s : Session}

theorem run_mirrorsItself (rest : s.machine.AtRest) (itself : s.machine.MirrorsItself) (bound : Nat)
    (source : String) :
    Ends (run bound source) s (·.machine.MirrorsItself) fun _ after => after.machine.MirrorsItself := by
  have writes {before after : Session} (itself : before.machine.MirrorsItself) (wrote : before.Wrote after) :
      after.machine.MirrorsItself := by
    obtain ⟨output, same⟩ := wrote
    rw [same]
    exact itself.writes
  rw [run_eq]
  refine Ends.bind (((load_writes source).and (load_accepts source)).imp
    (fun _ wrote => writes itself wrote) fun _ _ done => done) ?_
  rintro found loaded ⟨wrote, accepts⟩
  cases found with
  | none => exact writes itself wrote
  | some program =>
    obtain ⟨rfl, -⟩ := accepts program rfl
    have ran := (writes itself wrote).program (wrote.atRest rest) (s.round_orderly source) loaded.bindings
      loaded.config.maxCallDepth bound
    refine Ends.bind ((execute_ends_on bound _).imp (fun _ same => same ▸ ran) fun _ _ same => same ▸ ran) ?_
    intro _ executed executedItself
    exact checkpoint_ends.imp (fun _ shown => writes executedItself shown.machine)
      fun _ _ shown => writes executedItself shown.machine

end Stage

theorem Session.Recalls.mirrorsItself {rounds : List Round} {s : Session} (recalls : s.Recalls rounds) :
    s.machine.AtRest ∧ s.machine.MirrorsItself := by
  induction recalls with
  | new config output errors => exact ⟨.new output, .new output⟩
  | run bound source _ ran before =>
    exact ⟨Session.atRest_of_run before.1 ran,
      Session.of_run (·.machine.MirrorsItself) (Stage.run_mirrorsItself before.1 before.2 bound source) ran⟩
  | resetScopes _ before =>
    exact ⟨⟨rfl, before.1.root, rfl⟩, before.2.reset before.1⟩

theorem Session.Recalls.orderly {rounds : List Round} {s : Session} (recalls : s.Recalls rounds) :
    ∀ round ∈ rounds, Grammar.Tree.stmts round.program := by
  induction recalls with
  | new config output errors => nofun
  | @run rounds s after exit bound source _ ran before =>
    intro round member
    rcases List.mem_append.mp member with earlier | new
    · exact before round earlier
    · rw [List.mem_singleton.mp new]
      exact s.round_orderly source
  | resetScopes _ before => exact before

theorem Session.Tables.means {rounds : List Round} {s : Session} (tables : s.Tables rounds)
    {sites : List Site} (accepted : ∀ site ∈ sites, Session.Accepts rounds site) {path : Path} {id : NodeId}
    {name : Token} (refers : ⟨path, .reference id name⟩ ∈ sites) : s.bindings.Means path name.lexeme id := by
  obtain ⟨round, member, ruled, inside⟩ := accepted _ refers
  exact tables.bound round member ruled _ inside

/-- One computation does on mirrored machines what the other does. -/
def Exec.Reflects (x y : Exec Flow) : Prop :=
  ∀ p m n, m.Mirrors ClassDecl.TellsInitializer p n →
    Exec.Mirrored ClassDecl.TellsInitializer p m n (x m) (y n)

open Grammar (statement_bare loopStart_orderly optionally_orderly)
open Loop (headPlace stepPlace)

/-- A loop with clauses does what it says, with whatever clauses and body. Where it runs, the first clause runs
once, in a scope of its own that ends with the loop; the condition is tested before each round, the body
runs in a new scope, and then the last clause is evaluated; what is returned and what fails leaves at
once. This holds on whatever machines mirror each other: machines that a session comes to mirror
themselves, and orderly code, which is all that a session reads, keeps machines mirrored, so that
nothing that runs afterwards or around the loop tells the difference. All rounds share the one scope of
the loop, and so do all closures that are made in them. The condition and the last clause see what is in
sight at the head of the loop, and nothing that is declared in the body. -/
theorem loops_keep_their_meaning {rounds : List Round} {s : Session} (recalls : s.Recalls rounds) :
    s.machine.MirrorsItself ∧ (∀ round ∈ rounds, Grammar.Tree.stmts round.program) ∧
    ∀ bindings limit bound,
      let ctx := Exec.context bindings limit bound
      (∀ statements, Grammar.Tree.stmts statements → ∀ p m n, m.Mirrors ClassDecl.TellsInitializer p n →
        p.both m.environment.current.frame n.environment.current.frame →
          Exec.Mirrored ClassDecl.TellsInitializer p m n (Exec.stmts ctx statements m)
            (Exec.stmts ctx statements n)) ∧
      ∀ stop place after statement first condition step body, stop.isEnd = true →
        Grammar.Derives.Loop stop place statement first condition step body after →
          Exec.Reflects (Exec.stmt ctx body) (Loop.body ctx body) ∧
          (∀ inner, Exec.Reflects (Exec.stmt ctx body) inner →
            Exec.Reflects (Exec.stmt ctx statement) (Loop.run ctx first condition step inner)) ∧
          (∀ m head, Loop.Head ctx first condition step (Loop.body ctx body) m head →
            head.environment.current = m.environment.inner m.environment.current ∧
            ∀ (later : Environment) slot,
              (later.frame m.environment.frames.size).contains slot = true →
                later.find? head.environment.current slot = some m.environment.frames.size ∧
                ∀ own, (later.frame own).contains slot = false →
                  later.find? ⟨own, head.environment.current.frames⟩ slot =
                    some m.environment.frames.size) ∧
          ∀ path,
            (∀ e ∈ condition, ∀ site ∈ Sites.expr (headPlace path first) e,
              site ∈ Sites.stmt path statement) ∧
            (∀ e ∈ step, ∀ site ∈ Sites.expr (stepPlace path first body) e,
              site ∈ Sites.stmt path statement) ∧
            (stepPlace path first body).binders = (headPlace path first).binders ∧
            ((∀ site ∈ Sites.stmt path statement, Session.Accepts rounds site) → ∀ e id name,
              (e ∈ condition ∧ ⟨headPlace path first, .reference id name⟩ ∈
                  Sites.expr (headPlace path first) e ∨
                e ∈ step ∧ ⟨stepPlace path first body, .reference id name⟩ ∈
                  Sites.expr (stepPlace path first body) e) →
                s.bindings.Means (headPlace path first) name.lexeme id) := by
  have tables := recalls.tables
  refine ⟨recalls.mirrorsItself.2, recalls.orderly, fun bindings limit bound => ⟨?_, ?_⟩⟩
  · intro statements orderly p m n mirrors opens
    exact Loop.stmts_concurs (Exec.context_concurs bindings limit bound) orderly mirrors opens
  · intro stop place after statement first condition step body ends written
    obtain ⟨-, -, start, test, -, advance, -, repeated⟩ := written
    have calls := @Exec.context_concurs ClassDecl.TellsInitializer bindings limit bound
    have bare := statement_bare ends repeated
    refine ⟨fun p m n mirrors => ?_, fun inner kept p m n mirrors => ?_, fun m head reached => ?_,
      fun path => ⟨?_, ?_, ?_, ?_⟩⟩
    · exact Loop.body_concurs calls bare.1 bare.2 mirrors
    · exact Loop.loop_concurs calls (fun w agree => kept w.ghost w.left w.right agree)
        (loopStart_orderly ends start) (optionally_orderly ends test) (optionally_orderly ends advance) mirrors
    · have stays (m : Machine) : (Loop.body (Exec.context bindings limit bound) body).Stays m :=
        Loop.body_stays body
      exact ⟨reached.current stays, fun later slot held => reached.shares stays later held⟩
    · exact fun e present => Loop.sites_condition present
    · exact fun e present => Loop.sites_step present
    · exact Loop.binders_stepPlace path first bare.2
    · rintro sites e id name (⟨present, refers⟩ | ⟨present, refers⟩)
      · exact tables.means sites (Loop.sites_condition present _ refers)
      · exact Loop.means_head bare.2 (tables.means sites (Loop.sites_step present _ refers))

/-- A loop whose rounds make closures, in a session; and a loop as it is derived, run on the machine that the
session has come to. -/
theorem loops_keep_their_meaning_with_closures :
    let start := Session.new {} .unlimited .unlimited
    let source :=
      "var f; var g; for (var i = 1; i < 3; i = i + 1) { fun h() { return i; } if (i == 1) f = h; else g = h; } " ++
        "print f(); print g();"
    let name (text : String) : Token := ⟨.identifier, text, 0⟩
    let semicolon : Token := ⟨.symbol .semicolon, ";", 0⟩
    let tokens := [⟨.keyword .forWord, "for", 0⟩, ⟨.symbol .leftParen, "(", 0⟩, ⟨.keyword .varWord, "var", 0⟩,
      name "i", ⟨.symbol .equal, "=", 0⟩, name "f", semicolon, name "i", semicolon, name "i",
      ⟨.symbol .equal, "=", 0⟩, name "g", ⟨.symbol .rightParen, ")", 0⟩, ⟨.keyword .printWord, "print", 0⟩,
      name "i", semicolon]
    let first := Stmt.var 0 (name "i") (some (.variable 1 (name "f")))
    let condition := Expr.variable 2 (name "i")
    let step := Expr.assign 3 (name "i") (.variable 4 (name "g"))
    let body := Stmt.print (.variable 5 (name "i"))
    let written := Grammar.Derives.loopImage (some first) (some condition) (some step) body
    let ctx := Exec.context Bindings.empty 64 16
    Grammar.Derives.Loop (Token.atEnd 0) ⟨tokens, 0⟩ written (some first) (some condition) (some step) body
      ⟨[], 6⟩ ∧
    ∃ exit after, start.run 16 source = some (exit, after) ∧
      after.machine.output.accepted = "3\n3\n".toUTF8 ∧ after.machine.MirrorsItself ∧
      Exec.Reflects (Exec.stmt ctx written)
        (Loop.run ctx (some first) (some condition) (some step) (Loop.body ctx body)) := by
  intro start source name semicolon tokens first condition step body written ctx
  have passes {terminal : Terminal} {token : Token} {rest : List Token} {id : NodeId}
      (found : token.terminal? = some terminal) :
      Grammar.Derives.Passes terminal ⟨token :: rest, id⟩ token ⟨rest, id⟩ := ⟨found, rfl⟩
  have initial : Grammar.Derives.Expression (Token.atEnd 0) ⟨tokens.drop 5, 1⟩ (.variable 1 (name "f"))
      ⟨tokens.drop 6, 2⟩ := rfl
  have begins : Grammar.Derives.LoopStart (Token.atEnd 0) ⟨tokens.drop 2, 0⟩ (some first)
      ⟨tokens.drop 7, 2⟩ :=
    .var (.mk (passes rfl) (passes rfl) ⟨rfl, rfl⟩ (.present (passes rfl) initial) (passes rfl))
  have tests : Grammar.Derives.Expression (Token.atEnd 0) ⟨tokens.drop 7, 2⟩ condition
      ⟨tokens.drop 8, 3⟩ := rfl
  have advances : Grammar.Derives.Expression (Token.atEnd 0) ⟨tokens.drop 9, 3⟩ step
      ⟨tokens.drop 12, 5⟩ := rfl
  have shown : Grammar.Derives.Expression (Token.atEnd 0) ⟨tokens.drop 14, 5⟩ (.variable 5 (name "i"))
      ⟨tokens.drop 15, 6⟩ := rfl
  have repeats : Grammar.Derives.Statement (Token.atEnd 0) ⟨tokens.drop 13, 5⟩ body ⟨[], 6⟩ :=
    .print (passes rfl) shown (passes rfl)
  have derived : Grammar.Derives.Loop (Token.atEnd 0) ⟨tokens, 0⟩ written (some first) (some condition)
      (some step) body ⟨[], 6⟩ :=
    .mk (passes rfl) (passes rfl) begins (.present tests) (passes rfl) (.present advances) (passes rfl) repeats
  have done : (start.run 16 source).isSome = true := by decide +kernel
  have printed : ((start.run 16 source).map fun ran => ran.2.machine.output.accepted) =
      some "3\n3\n".toUTF8 := by decide +kernel
  obtain ⟨⟨exit, after⟩, ran⟩ := Option.isSome_iff_exists.mp done
  rw [ran] at printed
  have kept := loops_keep_their_meaning ((Session.Recalls.new {} .unlimited .unlimited).run 16 source ran)
  have here := (kept.2.2 Bindings.empty 64 16).2 _ _ _ _ _ _ _ _ rfl derived
  exact ⟨derived, exit, after, ran, Option.some.inj printed, kept.1, here.2.1 _ here.1⟩

end Lox
