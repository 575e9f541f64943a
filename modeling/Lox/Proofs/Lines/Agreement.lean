import Lox.Proofs.Lines.Course
import Lox.Proofs.Twin.History

set_option autoImplicit false

/-! Runs of accepted sources one after another, and a single run of all of them, line after line in one
text. The single run resolves all sources before it executes the first, and a position in its text is not
the position in a source; apart from positions both do the same, up to the first error at run time. -/

namespace Lox

theorem Stmts.Like.append {like : Likeness} {ss ss' rest rest' : List Stmt}
    (one : Stmts.Like like ss ss') (two : Stmts.Like like rest rest') :
    Stmts.Like like (ss ++ rest) (ss' ++ rest') := by
  induction ss generalizing ss' with
  | nil =>
      cases one
      exact two
  | cons s ss ih =>
      cases one with
      | cons head tail => exact .cons head (ih tail)

theorem Stmts.Like.split {like : Likeness} {ss rest whole : List Stmt}
    (alike : Stmts.Like like (ss ++ rest) whole) :
    ∃ front back, whole = front ++ back ∧ Stmts.Like like ss front ∧ Stmts.Like like rest back := by
  induction ss generalizing whole with
  | nil => exact ⟨[], whole, rfl, .nil, alike⟩
  | cons s ss ih =>
      cases alike with
      | cons head tail =>
          obtain ⟨front, back, rfl, one, two⟩ := ih tail
          exact ⟨_ :: front, back, rfl, .cons head one, two⟩

theorem Reading.counted_again {positions : Nat → Nat → Prop} {first id other : NodeId}
    (counted : (Reading.again positions first first).counted id other) : id = other := by
  obtain ⟨k, rfl, rfl⟩ := counted
  rfl

namespace Correspondence

/-- The same everywhere, but for the positions of tokens. -/
def placeless : Correspondence where
  nodes := Eq
  hidden := Eq
  slots := Eq
  positions := Token.anywhere

/-- The same among the nodes that have been numbered so far. -/
def upTo (l : Ledger) : Correspondence where
  nodes id other := id < l.nextNode ∧ id = other
  hidden id other := id < l.nextNode ∧ id = other ∧ (l.bindings.slot? id).isSome = true
  slots := Eq
  positions := Token.anywhere

variable {l next last origin : Ledger} {source : String} {program : List Stmt}

theorem upTo_placeless : (upTo l).Extends placeless :=
  ⟨⟨fun _ _ pair => pair.2, fun _ _ pair => pair.2.1, fun _ _ => id, fun _ _ => id⟩, fun _ _ => .inl⟩

/-- Reading a further source makes more nodes known. -/
theorem upTo_extends (reads : l.Reads source program next) (below : l.Below) :
    (upTo l).Extends (upTo next) := by
  have up := reads.fit.up
  refine ⟨⟨fun _ _ pair => ⟨Nat.lt_of_lt_of_le pair.1 up, pair.2⟩, fun id _ pair => ?_,
    fun _ _ => id, fun _ _ => id⟩, fun _ _ => .inl⟩
  refine ⟨Nat.lt_of_lt_of_le pair.1 up, pair.2.1, ?_⟩
  rw [reads.kept below (.inl pair.1)]
  exact pair.2.2

/-- The nodes that are known have the slots that they will have at the end. -/
theorem upTo_binds {whole : Bindings}
    (kept : ∀ id, id < l.nextNode → l.bindings.slot? id = whole.slot? id) :
    (upTo l).Binds l.bindings whole where
  nodes id other pair := by
    obtain ⟨small, rfl⟩ := pair
    rw [kept id small]
    cases whole.slot? id with
    | none => exact .none
    | some slot => exact .some rfl
  hidden id other pair := by
    obtain ⟨small, rfl, bound⟩ := pair
    obtain ⟨slot, slotOf⟩ := Option.isSome_iff_exists.mp bound
    exact ⟨slot, slot, slotOf, (kept id small).symm.trans slotOf, rfl⟩
  injective _ _ _ _ one two := by rw [show _ = _ from one, show _ = _ from two]

/-- Programs that have been found alike at the end are alike as soon as their nodes are known. -/
theorem settled_upTo
    (kept : ∀ id, id < l.nextNode → last.bindings.slot? id = l.bindings.slot? id) :
    (((origin.allotment origin).settled last.bindings).within (· < l.nextNode)).Le
      (upTo l).likeness where
  token _ _ pair := pair
  named id name other otherName both := by
    refine ⟨⟨both.1, Reading.counted_again both.2.1⟩, both.2.2⟩
  node id other both := ⟨both.1, Reading.counted_again both.2⟩
  hidden id other both := by
    refine ⟨both.1, Reading.counted_again both.2.1, ?_⟩
    rw [← kept id both.1]
    exact both.2.2

end Correspondence

/-- Courses that show the same: how they end, which statements they execute, what they report, and what
they leave, the output and the global variables among it. Where a token stands makes no difference. -/
structure Course.Agrees (one two : Course) : Prop where
  exit : one.exit = two.exit
  attempted : Stmts.Like Correspondence.placeless.likeness one.attempted two.attempted
  errors : one.errors = two.errors
  output : one.session.machine.output = two.session.machine.output
  globals : one.session.machine.environment.globals = two.session.machine.environment.globals
  machine : Machine.Twin .placeless one.session.machine.output two.session.machine.output
    one.session.machine two.session.machine

theorem Session.ledger_loaded {s : Session} {source : String} {program : List Stmt} {next : Ledger}
    (reads : s.ledger.Reads source program next) (executes : s.config.executes = true) :
    (s.loaded source next).ledger = next := by
  have parses : s.config.stopAfterParse = false := by
    unfold Config.executes at executes
    simpa using (Bool.and_eq_true_iff.mp executes).1
  have base : (s.begun source).nextBase = next.base :=
    (s.nextBase_begun source).trans reads.base.symm
  unfold ledger loaded
  dsimp only
  rw [base, parses]
  rfl

/-- A session in which sources have been run one after another, and a machine on which their programs have
been executed together. -/
structure Session.Beside (config : Config) (start : Sink) (l : Ledger) (s : Session) (m : Machine) :
    Prop where
  config : s.config = config
  ledger : s.ledger = l
  sound : ∃ sites, s.Sound sites
  twin : Machine.Twin (.upTo l) start start s.machine m

/-- A course that follows the execution of a part of a program. -/
inductive Course.Follows (start : Sink) (good : Session → Machine → Prop) :
    Option Course → EStateM.Result Stop Machine Flow → List Stmt → Prop
  | done {course : Course} {m : Machine} {tried : List Stmt} (exit : course.exit = none)
      (errors : course.errors = [])
      (attempted : Stmts.Like Correspondence.placeless.likeness course.attempted tried)
      (isGood : good course.session m) : Follows start good (some course) (.ok .normal m) tried
  | failed {course : Course} {e : RuntimeError} {m : Machine} {tried : List Stmt}
      (exit : course.exit = some ⟨1, true⟩)
      (errors : course.errors = [(e.diagnostic.kind, e.diagnostic.message)])
      (attempted : Stmts.Like Correspondence.placeless.likeness course.attempted tried)
      (twin : Machine.Twin .placeless start start course.session.machine m) :
      Follows start good (some course) (.error (.error e) m) tried
  | exhausted {m : Machine} {tried : List Stmt} :
      Follows start good none (.error .exhausted m) tried

/-- Further runs follow the execution of what stands behind. -/
theorem Course.Follows.andThen {start : Sink} {good better : Session → Machine → Prop} {s : Session}
    {ctx : Context} {bound : Nat} {source : String} {front back : List Stmt} {m : Machine}
    {sources : List String}
    (first : Course.Follows start good (s.course bound source) (Exec.stmts ctx front m)
      (Exec.attempted ctx front m))
    (later : ∀ t n, good t n → Exec.stmts ctx front m = .ok .normal n →
      Course.Follows start better (t.courses bound sources) (Exec.stmts ctx back n)
        (Exec.attempted ctx back n)) :
    Course.Follows start better (s.courses bound (source :: sources))
      (Exec.stmts ctx (front ++ back) m) (Exec.attempted ctx (front ++ back) m) := by
  generalize one : s.course bound source = course at first
  generalize two : Exec.stmts ctx front m = result at first later
  cases first with
  | @done course n _ exit errors attempted isGood =>
      obtain ⟨same, sameTried⟩ := Exec.append_of_normal two back
      rw [Session.courses_of_success sources one exit, same, sameTried]
      have rest := later _ n isGood rfl
      generalize course.session.courses bound sources = further at rest
      generalize Exec.stmts ctx back n = ended at rest
      cases rest with
      | done exit silent more isBetter =>
          exact .done exit (congrArg₂ (· ++ ·) errors silent) (attempted.append more) isBetter
      | failed exit said more twin =>
          exact .failed exit (congrArg₂ (· ++ ·) errors said) (attempted.append more) twin
      | exhausted => exact .exhausted
  | failed exit errors attempted twin =>
      obtain ⟨same, sameTried⟩ := Exec.append_of_error two back
      rw [Session.courses_of_failure sources one (by rw [exit]; rfl), same, sameTried]
      exact .failed exit errors attempted twin
  | exhausted =>
      obtain ⟨same, sameTried⟩ := Exec.append_of_error two back
      rw [Session.courses_of_exhausted sources one, same]
      exact .exhausted

namespace Session

variable {config : Config} {bound : Nat} {start : Sink} {known : Site → Prop} {whole : Bindings}
  {l next last origin : Ledger} {s : Session} {m : Machine} {source : String}
  {program front : List Stmt}

/-- A further source is loaded, and nothing happens to the machine. -/
theorem Beside.load (beside : s.Beside config start l m) (noTokens : config.dumpTokens = false)
    (noProgram : config.dumpAst = false) (executes : config.executes = true)
    (reads : l.Reads source program next) :
    ∃ t sites, Stage.load source s = .ok (some program) t ∧ t.reporter = s.begun source ∧
      t.machine = s.machine ∧ Session.Sound (sites ++ Sites.program program) t ∧
        Regular.stmts program ∧ t.Beside config start next m := by
  obtain ⟨isConfig, rfl, ⟨sites, sound⟩, twin⟩ := beside
  subst isConfig
  have load := Stage.load_of_reads noTokens noProgram reads
  rw [executes, if_pos rfl] at load
  have loads := Stage.load_ends sound source
  unfold Stage.Ends at loads
  rw [load] at loads
  obtain ⟨ready, regular⟩ := loads.2 program rfl
  refine ⟨_, sites, load, rfl, rfl, ready, regular, rfl, ledger_loaded reads executes, ⟨_, ready⟩, ?_⟩
  exact twin.extend (Correspondence.upTo_extends reads sound.below)

/-- A run of a source that passes follows the execution of a program that is alike to its own. -/
theorem Beside.course (beside : s.Beside config start l m) (noTokens : config.dumpTokens = false)
    (noProgram : config.dumpAst = false) (executes : config.executes = true)
    (reads : l.Reads source program next)
    (same : ∀ id, id < next.nextNode → next.bindings.slot? id = whole.slot? id)
    (like : Stmts.Like (Correspondence.upTo next).likeness program front)
    (runnable : Runnable known whole front m) :
    Course.Follows start (Beside config start next) (s.course bound source)
      (Exec.stmts (Exec.context whole config.maxCallDepth bound) front m)
      (Exec.attempted (Exec.context whole config.maxCallDepth bound) front m) := by
  obtain ⟨t, sites, load, begun, -, ready, regular, there⟩ :=
    beside.load noTokens noProgram executes reads
  have binds : (Correspondence.upTo next).Binds t.bindings whole := by
    rw [show t.bindings = next.bindings from congrArg Ledger.bindings there.ledger]
    exact Correspondence.upTo_binds same
  have own : Runnable (· ∈ sites ++ Sites.program program) t.bindings program t.machine :=
    ⟨ready.vouched, ready.machine, fun _ member => List.mem_append_right _ member, regular⟩
  obtain ⟨meets, attempts⟩ := own.twins binds like runnable there.twin config.maxCallDepth bound
  have shown := attempts.mono Correspondence.upTo_placeless.le.likeness
  have depth : t.config.maxCallDepth = config.maxCallDepth :=
    congrArg Config.maxCallDepth there.config
  rw [← depth] at meets shown ⊢
  rw [← attempted_of_load bound load] at shown
  cases ran : Exec.stmts (Exec.context t.bindings t.config.maxCallDepth bound) program t.machine with
  | ok flow after =>
      rw [ran] at meets
      generalize Exec.stmts _ front m = other at meets ⊢
      cases meets with
      | ok twin =>
          cases own.falls _ ran
          rw [course_of_ok load begun ran twin.output.flushes]
          exact .done rfl rfl shown ⟨there.config, there.ledger,
            ⟨_, ready.below, ready.nodes, ready.vouched, own.sound_after ran⟩, twin⟩
  | error stop after =>
      rw [ran] at meets
      generalize Exec.stmts _ front m = other at meets ⊢
      cases meets with
      | error stops twin =>
          cases stops with
          | exhausted =>
              rw [course_of_exhausted load ran]
              exact .exhausted
          | faulted fault tokens =>
              rw [course_of_error load begun ran twin.output.flushes]
              exact .failed rfl rfl shown (twin.extend Correspondence.upTo_placeless)

/-- Runs of sources that pass one after another follow the execution of a program that is alike to theirs
one after the other. -/
theorem Beside.courses (bound : Nat) (noTokens : config.dumpTokens = false)
    (noProgram : config.dumpAst = false) (executes : config.executes = true) {sources : List String}
    {programs : List (List Stmt)} (reads : l.ReadsAll sources programs last) (below : l.Below)
    (same : ∀ id, id < last.nextNode → last.bindings.slot? id = whole.slot? id) {rest : List Stmt}
    (alike : Stmts.Like ((origin.allotment origin).settled last.bindings) programs.flatten rest)
    (beside : s.Beside config start l m) (runnable : Runnable known whole rest m) :
    Course.Follows start (Beside config start last) (s.courses bound sources)
      (Exec.stmts (Exec.context whole config.maxCallDepth bound) rest m)
      (Exec.attempted (Exec.context whole config.maxCallDepth bound) rest m) := by
  induction reads generalizing s m rest with
  | nil =>
      cases alike
      exact .done rfl rfl .nil beside
  | @cons l next last source sources program programs head tail ih =>
      obtain ⟨front, back, rfl, one, two⟩ := alike.split
      have kept (id : NodeId) (small : id < next.nextNode) :
          last.bindings.slot? id = next.bindings.slot? id :=
        tail.kept (head.below below) small
      have like : Stmts.Like (Correspondence.upTo next).likeness program front :=
        (one.within fun id member => (head.fit.numbered.bounds member).2).mono
          (Correspondence.settled_upTo kept)
      have slots (id : NodeId) (small : id < next.nextNode) :
          next.bindings.slot? id = whole.slot? id := by
        rw [← kept id small, same id (Nat.lt_of_lt_of_le small tail.le)]
      have parts : Runnable known whole front m ∧ ∀ flow after,
          Exec.stmts (Exec.context whole config.maxCallDepth bound) front m = .ok flow after →
            Runnable known whole back after := runnable.split
      refine (beside.course noTokens noProgram executes head slots like parts.1).andThen ?_
      intro t n beside ran
      exact ih (head.below below) same two beside (parts.2 _ _ ran)

/-! ### Runs that are not meant to execute anything -/

theorem course_of_idle (bound : Nat) (noTokens : s.config.dumpTokens = false)
    (noProgram : s.config.dumpAst = false) (idle : s.config.executes = false)
    (reads : s.ledger.Reads source program next) :
    s.course bound source = some ⟨none, [], [], s.loaded source next⟩ := by
  have load := Stage.load_of_reads noTokens noProgram reads
  rw [idle, if_neg nofun] at load
  have ran : s.run bound source = some (none, s.loaded source next) := by
    unfold Session.run
    rw [Stage.run_eq, Outcome.bind_of_ok load]
    rfl
  have silent := (journal_of_run ran).2.2.1 rfl
  unfold Session.course Session.attempted
  rw [ran, silent, load]
  rfl

theorem courses_of_idle (bound : Nat) (noTokens : config.dumpTokens = false)
    (noProgram : config.dumpAst = false) (idle : config.executes = false) {sources : List String}
    {sites : List Site} (isConfig : s.config = config) (sound : s.Sound sites)
    (pass : ∀ source ∈ sources, Ledger.Passes source) :
    ∃ t, s.courses bound sources = some ⟨none, [], [], t⟩ ∧ t.machine = s.machine := by
  induction sources generalizing s with
  | nil => exact ⟨s, rfl, rfl⟩
  | cons source sources ih =>
      subst isConfig
      obtain ⟨⟨_, _, alone⟩, others⟩ := List.forall_mem_cons.mp pass
      have below : s.ledger.Below := sound.below
      obtain ⟨program, next, reads⟩ := alone.elsewhere Ledger.below_new below
      have course := course_of_idle bound noTokens noProgram idle reads
      have loads := Stage.load_ends sound source
      unfold Stage.Ends at loads
      rw [Stage.load_of_reads noTokens noProgram reads] at loads
      obtain ⟨t, later, machine⟩ := ih (s := s.loaded source next) rfl loads.1 others
      refine ⟨t, ?_, machine⟩
      rw [courses_of_success sources course rfl, later]
      rfl

end Session

theorem Sink.Echo.eq {start now now' : Sink} (echo : Sink.Echo start start now now') : now = now' := by
  obtain ⟨bytes, one, two⟩ := echo.same
  obtain ⟨accepted, limit, flushFails⟩ := now
  obtain ⟨accepted', limit', flushFails'⟩ := now'
  cases one.trans two.symm
  cases echo.endless.trans echo.endless'.symm
  cases echo.flushes.trans echo.flushes'.symm
  rfl

/-- What agrees on two machines. -/
theorem Course.agrees_of_twin {start : Sink} {one two : Course} (exit : one.exit = two.exit)
    (attempted : Stmts.Like Correspondence.placeless.likeness one.attempted two.attempted)
    (errors : one.errors = two.errors)
    (twin : Machine.Twin .placeless start start one.session.machine two.session.machine) :
    one.Agrees two where
  exit := exit
  attempted := attempted
  errors := errors
  output := twin.output.eq
  globals := twin.environment.globals
  machine :=
    { twin with
      output := .refl twin.output.endless twin.output.endless' twin.output.flushes
        twin.output.flushes' }

theorem Correspondence.empty_extends (w : Correspondence) : Correspondence.empty.Extends w :=
  ⟨⟨nofun, nofun, nofun, nofun⟩, fun _ _ _ => .inr ⟨nofun, nofun⟩⟩

theorem Machine.twin_new (w : Correspondence) {output : Sink} (unfailing : output.Unfailing) :
    Machine.Twin w output output (Machine.new output) (Machine.new output) := by
  have unlimited : Sink.unlimited.Unfailing := ⟨rfl, rfl⟩
  have sessions := Session.twin_new {} unfailing unfailing unlimited unlimited
  exact sessions.machine.extend (Correspondence.empty_extends w)

/-- In two resolutions that count from the same numbers, nodes have the same slots. -/
theorem Bindings.Twin.slot?_eq {l : Ledger} {n : Nat} {one two : Bindings}
    (twin : Bindings.Twin (l.allotment l) n one two) {id : NodeId} (new : l.nextNode ≤ id) :
    one.slot? id = two.slot? id := by
  obtain ⟨k, rfl⟩ := Nat.exists_eq_add_of_le new
  have pair : Option.Rel _ (one.slot? (l.nextNode + k)) (two.slot? (l.nextNode + k)) :=
    twin.nodes _ _ ⟨k, rfl, rfl⟩
  generalize one.slot? (l.nextNode + k) = slot at pair ⊢
  generalize two.slot? (l.nextNode + k) = slot' at pair ⊢
  cases pair with
  | none => rfl
  | some same =>
      obtain ⟨j, -, rfl, rfl⟩ := same
      rfl

namespace Session

variable {config : Config} {output errors : Sink} {bound : Nat} {sources : List String}
  (noTokens : config.dumpTokens = false) (noProgram : config.dumpAst = false)
  (unfailing : output.Unfailing)
include noTokens noProgram unfailing

theorem courses_agree_of_idle (idle : config.executes = false)
    (passes : ∀ source ∈ sources, Ledger.Passes source) :
    Option.Rel Course.Agrees ((Session.new config output errors).courses bound sources)
      ((Session.new config output errors).course bound ("\n".intercalate sources)) := by
  obtain ⟨programs, last, reads⟩ := Ledger.readsAll_of_passes Ledger.below_new passes
  obtain ⟨program, after, n, together, -⟩ := reads.lines Ledger.below_new
  have sound := Session.sound_new config output errors
  obtain ⟨t, one, machine⟩ := courses_of_idle bound noTokens noProgram idle rfl sound passes
  have two := course_of_idle bound (s := Session.new config output errors) noTokens noProgram idle
    together
  have still : Machine.Twin .placeless output output t.machine (Machine.new output) := by
    rw [machine]
    exact Machine.twin_new .placeless unfailing
  rw [one, two]
  exact .some (Course.agrees_of_twin rfl .nil rfl still)

theorem courses_agree_of_executes (executes : config.executes = true)
    (passes : ∀ source ∈ sources, Ledger.Passes source) :
    Option.Rel Course.Agrees ((Session.new config output errors).courses bound sources)
      ((Session.new config output errors).course bound ("\n".intercalate sources)) := by
  obtain ⟨programs, last, reads⟩ := Ledger.readsAll_of_passes Ledger.below_new passes
  obtain ⟨program, after, n, together, twin, alike⟩ := reads.lines Ledger.below_new
  have beside : (Session.new config output errors).Beside config output .new (Machine.new output) :=
    ⟨rfl, rfl, ⟨[], Session.sound_new config output errors⟩, Machine.twin_new _ unfailing⟩
  obtain ⟨t, sites, load, begun, machine, ready, regular, there⟩ :=
    beside.load noTokens noProgram executes together
  have slots (id : NodeId) (_ : id < last.nextNode) :
      last.bindings.slot? id = t.bindings.slot? id := by
    rw [show t.bindings = after.bindings from congrArg Ledger.bindings there.ledger]
    exact twin.slot?_eq (Nat.zero_le id)
  have runnable : Runnable (· ∈ sites ++ Sites.program program) t.bindings program t.machine :=
    ⟨ready.vouched, ready.machine, fun _ member => List.mem_append_right _ member, regular⟩
  have start : Machine.new output = t.machine := machine.symm
  rw [start] at beside
  have follows := beside.courses bound noTokens noProgram executes reads Ledger.below_new slots alike
    runnable
  rw [← congrArg Config.maxCallDepth there.config, ← attempted_of_load bound load] at follows
  generalize (Session.new config output errors).courses bound sources = course at follows ⊢
  cases ran : Exec.stmts (Exec.context t.bindings t.config.maxCallDepth bound) program t.machine with
  | ok flow m =>
      rw [ran] at follows
      cases follows with
      | done exit silent attempted good =>
          have twin := good.twin.extend Correspondence.upTo_placeless
          rw [course_of_ok load begun ran twin.output.flushes']
          exact .some (Course.agrees_of_twin exit attempted silent twin)
  | error stop m =>
      rw [ran] at follows
      cases follows with
      | failed exit said attempted twin =>
          rw [course_of_error load begun ran twin.output.flushes']
          exact .some (Course.agrees_of_twin exit attempted said twin)
      | exhausted =>
          rw [course_of_exhausted load ran]
          exact .none

end Session

/-- Without dumps and with an output that takes everything, runs of accepted sources one after another agree
with a single run of all of them, line after line in one text: both end alike, after the same statements
and with the same errors, and leave the same output, the same global variables and the same objects. -/
theorem line_by_line_agrees (config : Config) (noTokens : config.dumpTokens = false)
    (noProgram : config.dumpAst = false) {output : Sink} (unfailing : output.Unfailing) (errors : Sink)
    (bound : Nat) (sources : List String) (accepted : ∀ source ∈ sources, Accepted source = true) :
    Option.Rel Course.Agrees ((Session.new config output errors).courses bound sources)
      ((Session.new config output errors).course bound ("\n".intercalate sources)) := by
  have passes (source : String) (member : source ∈ sources) : Ledger.Passes source :=
    Ledger.passes_of_accepted (accepted source member)
  cases executes : config.executes with
  | false => exact Session.courses_agree_of_idle noTokens noProgram unfailing executes passes
  | true => exact Session.courses_agree_of_executes noTokens noProgram unfailing executes passes

/-- The first of three sources ends in a comment and a carriage return, the second makes a closure that the
third calls; the third fails at its third statement. -/
theorem line_by_line_agrees_of_closure :
    let sources :=
      ["var b = true; fun show() { print b; } // show\r",
        "{ var c = b; fun get() { return c; } b = get; }",
        "show();\nprint b(); b().d; print b;"]
    (∀ source ∈ sources, Accepted source = true) ∧
      ((Session.new {} .unlimited .unlimited).courses 8 sources).map (fun course =>
          (course.exit, course.errors, course.attempted.length)) =
        some (some ⟨1, true⟩, [(.runtime, "Only instances have properties.")], 6) ∧
      Option.Rel Course.Agrees ((Session.new {} .unlimited .unlimited).courses 8 sources)
        ((Session.new {} .unlimited .unlimited).course 8 ("\n".intercalate sources)) := by
  have accepted : ∀ source ∈
      ["var b = true; fun show() { print b; } // show\r",
        "{ var c = b; fun get() { return c; } b = get; }",
        "show();\nprint b(); b().d; print b;"], Accepted source = true := by
    decide +kernel
  exact ⟨accepted, by decide +kernel,
    line_by_line_agrees {} rfl rfl ⟨rfl, rfl⟩ .unlimited 8 _ accepted⟩

end Lox
