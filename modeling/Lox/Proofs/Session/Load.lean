import Lox.Proofs.Machine.Presence
import Lox.Session

set_option autoImplicit false

/-! Runs of a session in two parts: a source is loaded, and its program is executed if nothing speaks
against it. Loading leaves a session whose machine is sound and whose bindings cover the program that
is to be executed; a program that is refused leaves no trace in the bindings. -/

namespace Lox

namespace Stage

def dumpIf (asked : Bool) (text : String) : Stage Unit :=
  if asked then dump text else return ()

def loadTokens (config : Config) (source : String) : Stage (List Token) := do
  let tokens ← scan source
  dumpIf config.dumpTokens (config.dumpFormat.tokens tokens)
  checkpoint
  return tokens

def loadProgram (config : Config) (tokens : List Token) : Stage (List Stmt) := do
  let program ← parse tokens
  dumpIf config.dumpAst (config.dumpFormat.program program)
  checkpoint
  return program

/-- All stages before execution. Yields the program if it is to be executed. -/
def load (source : String) : Stage (Option (List Stmt)) := do
  let config := (← get).config
  let tokens ← loadTokens config source
  let first := (← get).nextNode
  let program ← loadProgram config tokens
  if config.stopAfterParse then
    return none
  else
    resolve first program
    checkpoint
    if config.stopAfterResolve then return none else return some program

def finish (execute : List Stmt → Stage Unit) : Option (List Stmt) → Stage Unit
  | none => return ()
  | some program => do
    execute program
    checkpoint

theorem ite_bind {α β : Type} {c : Prop} [Decidable c] (x y : Stage α) (f : α → Stage β) :
    (if c then x else y) >>= f = if c then x >>= f else y >>= f := by
  split <;> rfl

/-- A run loads a program and then executes it. -/
theorem run_eq (bound : Nat) (source : String) :
    run bound source = load source >>= finish (execute bound) := by
  unfold run load loadTokens loadProgram dumpIf
  simp only [bind_assoc, ite_bind, pure_bind, finish]

/-- What a stage leaves, whether the run goes on or ends here. -/
def Ends {α : Type} (stage : Stage α) (s : Session) (bad : Session → Prop)
    (good : α → Session → Prop) : Prop :=
  match stage s with
  | .ok a after => good a after
  | .error _ after => bad after

namespace Ends

variable {α β : Type} {stage : Stage α} {s : Session} {bad : Session → Prop}
  {good : α → Session → Prop}

theorem bind {next : β → Session → Prop} {second : α → Stage β} (one : Ends stage s bad good)
    (two : ∀ a after, good a after → Ends (second a) after bad next) :
    Ends (stage >>= second) s bad next := by
  unfold Ends at one ⊢
  cases result : stage s with
  | ok a after =>
      rw [result] at one
      rw [Outcome.bind_of_ok result]
      exact two a after one
  | error halt after =>
      rw [result] at one
      rw [Outcome.bind_of_error result]
      exact one

theorem get_bind {next : β → Session → Prop} {second : Session → Stage β}
    (rest : Ends (second s) s bad next) : Ends (get >>= second) s bad next :=
  rest

theorem modify_bind {next : β → Session → Prop} {second : Unit → Stage β}
    (change : Session → Session) (rest : Ends (second ()) (change s) bad next) :
    Ends (modify change >>= second) s bad next :=
  rest

theorem imp {worse : Session → Prop} {better : α → Session → Prop} (ends : Ends stage s bad good)
    (onError : ∀ after, bad after → worse after)
    (improves : ∀ a after, good a after → better a after) : Ends stage s worse better := by
  unfold Ends at ends ⊢
  cases result : stage s with
  | ok a after =>
      rw [result] at ends
      exact improves a after ends
  | error halt after =>
      rw [result] at ends
      exact onError after ends

theorem and {worse : Session → Prop} {better : α → Session → Prop} (one : Ends stage s bad good)
    (two : Ends stage s worse better) :
    Ends stage s bad fun a after => good a after ∧ better a after := by
  unfold Ends at one two ⊢
  cases result : stage s with
  | ok a after =>
      rw [result] at one two
      exact ⟨one, two⟩
  | error halt after =>
      rw [result] at one
      exact one

end Ends
end Stage

/-- Something has been shown or counted, and nothing else has changed. -/
structure Session.Shown (s after : Session) : Prop where
  config : after.config = s.config
  bindings : after.bindings = s.bindings
  nextNode : after.nextNode = s.nextNode
  machine : ∃ output, after.machine = { s.machine with output := output }

theorem Session.Shown.refl (s : Session) : s.Shown s :=
  ⟨rfl, rfl, rfl, s.machine.output, rfl⟩

theorem Session.Shown.trans {first second third : Session} (one : first.Shown second)
    (two : second.Shown third) : first.Shown third := by
  obtain ⟨_, before⟩ := one.machine
  obtain ⟨output, after⟩ := two.machine
  refine ⟨two.config.trans one.config, two.bindings.trans one.bindings,
    two.nextNode.trans one.nextNode, output, ?_⟩
  rw [after, before]

namespace Stage

variable {s : Session}

theorem report_ends (ds : List Diagnostic) : Ends (report ds) s s.Shown fun _ => s.Shown :=
  ⟨rfl, rfl, rfl, s.machine.output, rfl⟩

theorem checkpoint_ends : Ends checkpoint s s.Shown fun _ => s.Shown := by
  unfold Ends checkpoint
  cases s.reporter.checkpoint with
  | none => exact Session.Shown.refl s
  | some exit => exact Session.Shown.refl s

theorem dump_ends (text : String) : Ends (dump text) s s.Shown fun _ => s.Shown := by
  unfold Ends dump
  cases s.machine.output.deliveryFailure? text with
  | none => exact ⟨rfl, rfl, rfl, _, rfl⟩
  | some failure => exact ⟨rfl, rfl, rfl, _, rfl⟩

theorem scan_ends (source : String) :
    Ends (scan source) s s.Shown fun tokens after => s.Shown after ∧
      ∃ base text, tokens = Token.ofText base text :=
  ⟨⟨rfl, rfl, rfl, s.machine.output, rfl⟩, _, _, rfl⟩

theorem dumpIf_ends (asked : Bool) (text : String) :
    Ends (dumpIf asked text) s s.Shown fun _ => s.Shown := by
  unfold dumpIf
  split
  · exact dump_ends text
  · exact Session.Shown.refl s

theorem loadTokens_ends (config : Config) (source : String) :
    Ends (loadTokens config source) s s.Shown fun tokens after => s.Shown after ∧
      ∃ base text, tokens = Token.ofText base text := by
  unfold loadTokens
  refine (scan_ends source).bind fun tokens scanned read => ?_
  refine ((dumpIf_ends _ _).imp (fun _ => read.1.trans) fun _ _ => read.1.trans).bind
    fun _ listed shown => ?_
  refine (checkpoint_ends.imp (fun _ => shown.trans) fun _ _ => shown.trans).bind
    fun _ checked shown => ?_
  exact ⟨shown, read.2⟩

end Stage

/-- A session in which the code of some sites may run, and in which no node from `first` on has a slot or
belongs to such code. -/
structure Session.SoundFrom (sites : List Site) (first : NodeId) (s : Session) : Prop where
  below : s.bindings.Below first
  nodes : ∀ site ∈ sites, ∀ id ∈ site.nodes, id < first
  vouched : Vouched (· ∈ sites) s.bindings
  machine : s.machine.Sound (· ∈ sites) s.bindings

/-- A session in which the code of some sites may run. -/
def Session.Sound (sites : List Site) (s : Session) : Prop :=
  s.SoundFrom sites s.nextNode

namespace Session

variable {sites : List Site} {first : NodeId} {s after : Session}

theorem SoundFrom.shown (sound : s.SoundFrom sites first) (shown : s.Shown after) :
    after.SoundFrom sites first := by
  obtain ⟨output, machine⟩ := shown.machine
  refine ⟨?_, sound.nodes, ?_, ?_⟩
  · rw [shown.bindings]
    exact sound.below
  · rw [shown.bindings]
    exact sound.vouched
  · rw [shown.bindings, machine]
    exact (sound.machine.accept output).sound

theorem Sound.shown (sound : s.Sound sites) (shown : s.Shown after) : after.Sound sites := by
  rw [Sound, shown.nextNode]
  exact SoundFrom.shown sound shown

theorem SoundFrom.sound (sound : s.SoundFrom sites first) (le : first ≤ s.nextNode) :
    s.Sound sites :=
  ⟨fun id beyond => sound.below id (Nat.le_trans le beyond),
    fun site member id own => Nat.lt_of_lt_of_le (sound.nodes site member id own) le,
    sound.vouched, sound.machine⟩

/-- Bindings that differ from others only in nodes from `first` on. -/
theorem SoundFrom.bind (sound : s.SoundFrom sites first) (bindings : Bindings) (fresh : List Site)
    (frame : ∀ id, id < first → bindings.slot? id = s.bindings.slot? id)
    (below : bindings.Below s.nextNode)
    (le : first ≤ s.nextNode) (nodes : ∀ site ∈ fresh, ∀ id ∈ site.nodes, id < s.nextNode)
    (bound : ∀ site ∈ fresh, site.Bound bindings)
    (clean : ∀ site ∈ fresh, ∀ e, ¬ Offends site e) :
    Session.Sound (sites ++ fresh) { s with bindings := bindings } := by
  have grows : s.bindings.Grows bindings := by
    intro id slot known
    have small : id < first := by
      by_contra beyond
      have none := sound.below id (Nat.le_of_not_lt beyond)
      rw [Bindings.Binds, none] at known
      cases known
    exact (frame id small).trans known
  refine ⟨below, ?_, ⟨?_, ?_⟩, ?_⟩
  · intro site member id own
    rcases List.mem_append.mp member with old | new
    · exact Nat.lt_of_lt_of_le (sound.nodes site old id own) le
    · exact nodes site new id own
  · intro site member
    rcases List.mem_append.mp member with old | new
    · exact (sound.vouched.bound site old).mono grows fun id own =>
        frame id (sound.nodes site old id own)
    · exact bound site new
  · intro site member e
    rcases List.mem_append.mp member with old | new
    · exact sound.vouched.clean site old e
    · exact clean site new e
  · exact sound.machine.mono (fun site member => List.mem_append_left _ member) grows

theorem SoundFrom.rebind (sound : s.SoundFrom sites first) (bindings : Bindings)
    (frame : ∀ id, id < first → bindings.slot? id = s.bindings.slot? id)
    (below : bindings.Below s.nextNode) (le : first ≤ s.nextNode) :
    Session.Sound sites { s with bindings := bindings } := by
  have bound := sound.bind bindings [] frame below le (by simp) (by simp) (by simp)
  rw [List.append_nil] at bound
  exact bound

end Session

namespace Stage

variable {sites : List Site} {first : NodeId} {s : Session}

/-- A program that is accepted may run; one that is refused ends the run at the next checkpoint. -/
theorem resolve_ends (sound : s.SoundFrom sites first) {program : List Stmt}
    (fit : Grammar.Fit.stmts first s.nextNode program) :
    Ends (resolve first program) s (Session.Sound sites) fun _ after => after.Sound sites ∧
      (after.Sound (sites ++ Sites.program program) ∨ after.reporter.checkpoint ≠ none) := by
  have nodesBound (site : Site) (member : site ∈ Sites.program program) (id : NodeId)
      (own : id ∈ site.nodes) : first ≤ id ∧ id < s.nextNode := by
    apply fit.numbered.bounds
    rw [← Sites.nodes_program]
    exact List.mem_flatMap.mpr ⟨site, member, own⟩
  have records := resolve_records fit.numbered.nodup fun id member =>
    sound.below id (fit.numbered.bounds member).1
  have refusal := resolve_error s.bindings fit.regular
  have outside (id : NodeId) (other : id < first ∨ s.nextNode ≤ id) :=
    resolve_outside fit sound.below other
  apply Ends.get_bind
  cases result : Lox.resolve s.bindings program with
  | mk refused bindings =>
      rw [result] at records refusal outside
      cases refused with
      | none =>
          have kept : Recorded (Sites.program program) s.bindings bindings := records
          have clean := Sites.firstError_eq_none_iff.mp refusal.symm
          have below : bindings.Below s.nextNode := by
            intro id beyond
            rw [outside id (.inr beyond)]
            exact sound.below id (Nat.le_trans fit.up beyond)
          have before (id : NodeId) (small : id < first) := outside id (.inl small)
          exact ⟨sound.rebind bindings before below fit.up,
            .inl (sound.bind bindings _ before below fit.up
              (fun site member id own => (nodesBound site member id own).2) kept.bound clean)⟩
      | some e =>
          have same (id : NodeId) :
              (bindings.forgetFrom first).slot? id = s.bindings.slot? id := by
            rw [Bindings.slot?_forgetFrom]
            split
            · next small => exact outside id (.inl small)
            · next large => exact (sound.below id (Nat.le_of_not_lt large)).symm
          have forgotten := sound.rebind (bindings.forgetFrom first) (fun id _ => same id)
            (fun id beyond => (same id).trans (sound.below id (Nat.le_trans fit.up beyond))) fit.up
          exact ⟨⟨forgotten.below, forgotten.nodes, forgotten.vouched, forgotten.machine⟩,
            .inr (by simp [Reporter.checkpoint, Reporter.reportAll, Reporter.report])⟩

theorem parse_ends (sound : s.Sound sites) {tokens : List Token}
    (spelled : ∀ token ∈ tokens, token.Spelled) :
    Ends (parse tokens) s (Session.Sound sites) fun program after =>
      after.SoundFrom sites s.nextNode ∧ Grammar.Fit.stmts s.nextNode after.nextNode program := by
  have fit := Grammar.parse_fit spelled s.nextNode
  have still : Session.SoundFrom sites s.nextNode
      { s with nextNode := (Grammar.parse tokens s.nextNode).nextId } :=
    ⟨sound.below, sound.nodes, sound.vouched, sound.machine⟩
  refine Ends.get_bind (Ends.modify_bind _ ?_)
  refine ((report_ends _).imp (fun _ => (still.sound fit.up).shown) fun _ _ => id).bind
    fun _ after shown => ?_
  split
  · exact (still.sound fit.up).shown shown
  · refine ⟨still.shown shown, ?_⟩
    rw [shown.nextNode]
    exact fit

theorem loadProgram_ends (sound : s.Sound sites) (config : Config) {tokens : List Token}
    (spelled : ∀ token ∈ tokens, token.Spelled) :
    Ends (loadProgram config tokens) s (Session.Sound sites) fun program after =>
      after.SoundFrom sites s.nextNode ∧ Grammar.Fit.stmts s.nextNode after.nextNode program := by
  unfold loadProgram
  refine (parse_ends sound spelled).bind fun program parsed read => ?_
  have still (after : Session) (shown : parsed.Shown after) :
      after.SoundFrom sites s.nextNode ∧ Grammar.Fit.stmts s.nextNode after.nextNode program := by
    rw [shown.nextNode]
    exact ⟨read.1.shown shown, read.2⟩
  have stop (after : Session) (shown : parsed.Shown after) : after.Sound sites :=
    (still after shown).1.sound (still after shown).2.up
  refine ((dumpIf_ends _ _).imp stop fun _ _ => id).bind fun _ listed shown => ?_
  refine (checkpoint_ends.imp (fun after last => stop after (shown.trans last))
    fun _ _ => shown.trans).bind fun _ checked shown => ?_
  exact still checked shown

/-- Loading a source leaves a session in which the program may run that is to be executed, if there is
one. -/
theorem load_ends (sound : s.Sound sites) (source : String) :
    Ends (load source) s (Session.Sound sites) fun found after => after.Sound sites ∧
      ∀ program, found = some program →
        after.Sound (sites ++ Sites.program program) ∧ Regular.stmts program := by
  have idle (now : Session) (here : now.Sound sites) :
      Ends (return none) now (Session.Sound sites) fun found after => after.Sound sites ∧
        ∀ program, found = some program →
          after.Sound (sites ++ Sites.program program) ∧ Regular.stmts program :=
    ⟨here, nofun⟩
  unfold load
  apply Ends.get_bind
  refine ((loadTokens_ends s.config source).imp (fun _ => sound.shown) fun _ _ => id).bind
    fun tokens scanned read => ?_
  obtain ⟨shown, base, text, same⟩ := read
  apply Ends.get_bind
  have spelled : ∀ token ∈ tokens, token.Spelled := by
    rw [same]
    exact Token.ofText_spelled base text
  refine (loadProgram_ends (sound.shown shown) s.config spelled).bind fun program parsed fit => ?_
  split
  · exact idle parsed (fit.1.sound fit.2.up)
  · refine (resolve_ends fit.1 fit.2).bind fun _ resolved accepted => ?_
    obtain ⟨still, ready⟩ := accepted
    have checked : Ends checkpoint resolved (Session.Sound sites) fun _ after =>
        after.Sound sites ∧ after.Sound (sites ++ Sites.program program) := by
      unfold Ends checkpoint
      cases result : resolved.reporter.checkpoint with
      | none => exact ⟨still, ready.resolve_right fun other => other result⟩
      | some exit => exact still
    refine checked.bind fun _ last ready => ?_
    split
    · exact idle last ready.1
    · exact ⟨ready.1, fun _ same => by cases same; exact ⟨ready.2, fit.2.regular⟩⟩

end Stage

/-- Nothing on the machine has changed but what has been written. -/
def Session.Wrote (s after : Session) : Prop :=
  ∃ output, after.machine = { s.machine with output := output }

theorem Session.Wrote.refl (s : Session) : s.Wrote s :=
  ⟨s.machine.output, rfl⟩

theorem Session.Wrote.trans {first second third : Session} (one : first.Wrote second)
    (two : second.Wrote third) : first.Wrote third := by
  obtain ⟨_, before⟩ := one
  obtain ⟨output, after⟩ := two
  refine ⟨output, ?_⟩
  rw [after, before]

namespace Stage

/-- A stage that does nothing to the machine but write. -/
def Writes {α : Type} (stage : Stage α) (s : Session) : Prop :=
  Ends stage s s.Wrote fun _ => s.Wrote

section

variable {α β : Type} {stage : Stage α} {s : Session}

theorem Writes.bind {second : α → Stage β} (one : Writes stage s)
    (two : ∀ a after, Writes (second a) after) : Writes (stage >>= second) s :=
  Ends.bind one fun a after wrote => (two a after).imp (fun _ => wrote.trans) fun _ _ => wrote.trans

theorem writes_pure (a : α) : Writes (return a) s :=
  Session.Wrote.refl s

theorem writes_of_shown (ends : Ends stage s s.Shown fun _ => s.Shown) : Writes stage s :=
  ends.imp (fun _ => Session.Shown.machine) fun _ _ => Session.Shown.machine

theorem loadTokens_writes (config : Config) (source : String) :
    Writes (loadTokens config source) s :=
  writes_of_shown ((loadTokens_ends config source).imp (fun _ => id) fun _ _ => And.left)

theorem parse_writes (tokens : List Token) : Writes (parse tokens) s := by
  refine Ends.get_bind (Ends.modify_bind _ ?_)
  apply (writes_of_shown (report_ends _)).bind
  intro _ after
  split
  · exact Session.Wrote.refl after
  · exact writes_pure _

theorem loadProgram_writes (config : Config) (tokens : List Token) :
    Writes (loadProgram config tokens) s :=
  (parse_writes tokens).bind fun _ _ =>
    (writes_of_shown (dumpIf_ends _ _)).bind fun _ _ =>
      (writes_of_shown checkpoint_ends).bind fun _ _ => writes_pure _

theorem resolve_writes (first : NodeId) (program : List Stmt) :
    Writes (resolve first program) s := by
  apply Ends.get_bind
  split
  · exact Session.Wrote.refl s
  · exact Session.Wrote.refl s

/-- Before a program is executed, nothing happens to the machine but that listings are written. -/
theorem load_writes (source : String) : Writes (load source) s := by
  apply Ends.get_bind
  apply (loadTokens_writes s.config source).bind
  intro tokens scanned
  apply Ends.get_bind
  apply (loadProgram_writes s.config tokens).bind
  intro program parsed
  split
  · exact writes_pure _
  · apply (resolve_writes _ _).bind
    intro _ resolved
    apply (writes_of_shown checkpoint_ends).bind
    intro _ checked
    split <;> exact writes_pure _

end
end Stage

/-- What holds wherever the stages of a run end holds after the run. -/
theorem Session.of_run {s after : Session} {bound : Nat} {source : String} {exit : Option Exit}
    (good : Session → Prop) (ends : Stage.Ends (Stage.run bound source) s good fun _ => good)
    (ran : s.run bound source = some (exit, after)) : good after := by
  unfold Stage.Ends at ends
  unfold Session.run at ran
  cases result : Stage.run bound source s with
  | ok done last =>
      rw [result] at ends ran
      cases ran
      exact ends
  | error halt last =>
      rw [result] at ends ran
      cases halt with
      | exit status =>
          cases ran
          exact ends
      | exhausted => cases ran

end Lox
