import Lox.Proofs.Session.Load

set_option autoImplicit false

/-! Runs with a journal. A journal tells in order what a run has to show for itself: the diagnostics that
it reports, the listings that it delivers, and the program that it executes. To keep one changes
nothing about the run. -/

namespace Lox

inductive Event where
  | reported (d : Diagnostic)
  | listed (text : String)
  | executed (program : List Stmt)

/-- A session and what has happened since the run began, in order. -/
structure Journal where
  session : Session
  events : List Event

namespace Journal

def add (j : Journal) (session : Session) (events : List Event) : Journal :=
  ⟨session, j.events ++ events⟩

def reported (j : Journal) : List Diagnostic :=
  j.events.filterMap fun
    | .reported d => some d
    | _ => none

def listed (j : Journal) : List String :=
  j.events.filterMap fun
    | .listed text => some text
    | _ => none

def executed (j : Journal) : List (List Stmt) :=
  j.events.filterMap fun
    | .executed program => some program
    | _ => none

end Journal

/-- A stage of a run that keeps the journal. -/
abbrev Noted (α : Type) := EStateM Halt Journal α

namespace Noted

variable {α : Type}

def session : Noted Session := fun j =>
  .ok j.session j

def change (f : Session → Session) : Noted Unit := fun j =>
  .ok () { j with session := f j.session }

def report (ds : List Diagnostic) : Noted Unit := fun j =>
  .ok () (j.add { j.session with reporter := j.session.reporter.reportAll ds }
    (ds.map .reported))

def halt : Noted α := fun j =>
  .error (.exit j.session.reporter.exit) j

def checkpoint : Noted Unit := fun j =>
  match j.session.reporter.checkpoint with
  | none => .ok () j
  | some exit => .error (.exit exit) j

/-- Ends a run whose listing could not be delivered. -/
def refuse (failure : SinkFailure) : Noted Unit := do
  report [(RuntimeError.outputFailed failure).diagnostic]
  halt

def dump (text : String) : Noted Unit := fun j =>
  let output := j.session.machine.output
  let j' := j.add
    { j.session with machine := { j.session.machine with output := output.accept text } }
    [.listed text]
  match output.deliveryFailure? text with
  | none => .ok () j'
  | some failure => refuse failure j'

def dumpIf (asked : Bool) (text : String) : Noted Unit :=
  if asked then dump text else return ()

def scan (source : String) : Noted (List Token) := do
  let text := Text.plainNewlines source.toList
  let base := (← session).reporter.nextBase
  change fun s => { s with reporter := s.reporter.addSource (String.ofList text) }
  let items := Token.scan base text
  report (items.filterMap fun item => item.error?.map (·.diagnostic))
  return items.filterMap (·.token?)

def parse (tokens : List Token) : Noted (List Stmt) := do
  let parse := Grammar.parse tokens (← session).nextNode
  change fun s => { s with nextNode := parse.nextId }
  report parse.diagnostics
  if parse.fatal.isSome then halt else return parse.statements

def resolve (first : NodeId) (program : List Stmt) : Noted Unit := do
  match Lox.resolve (← session).bindings program with
  | (none, bindings) => change fun s => { s with bindings }
  | (some e, bindings) =>
    change fun s => { s with bindings := bindings.forgetFrom first }
    report [e.diagnostic]

def execute (bound : Nat) (program : List Stmt) : Noted Unit := fun j =>
  let s := j.session
  let context := Exec.context s.bindings s.config.maxCallDepth bound
  match Exec.program context program s.machine with
  | .ok _ machine => .ok () (j.add { s with machine } [.executed program])
  | .error (.error e) machine =>
    report [e.diagnostic] (j.add { s with machine } [.executed program])
  | .error .exhausted machine => .error .exhausted (j.add { s with machine } [.executed program])

def load (source : String) : Noted (Option (List Stmt)) := do
  let config := (← session).config
  let tokens ← scan source
  dumpIf config.dumpTokens (config.dumpFormat.tokens tokens)
  checkpoint
  let first := (← session).nextNode
  let program ← parse tokens
  dumpIf config.dumpAst (config.dumpFormat.program program)
  checkpoint
  if config.stopAfterParse then
    return none
  else
    resolve first program
    checkpoint
    if config.stopAfterResolve then return none else return some program

def finish (bound : Nat) : Option (List Stmt) → Noted Unit
  | none => return ()
  | some program => do
    execute bound program
    checkpoint

def run (bound : Nat) (source : String) : Noted Unit :=
  load source >>= finish bound

end Noted

/-- The journal of a whole run. -/
def Session.journal (s : Session) (bound : Nat) (source : String) : Journal :=
  Outcome.state (Noted.run bound source ⟨s, []⟩)

namespace Noted

variable {α β : Type}

/-- A result without the journal. -/
def forget : EStateM.Result Halt Journal α → EStateM.Result Halt Session α
  | .ok a j => .ok a j.session
  | .error halt j => .error halt j.session

/-- A stage goes alike with and without a journal. -/
def Plain (noted : Noted α) (plain : Stage α) : Prop :=
  ∀ j, forget (noted j) = plain j.session

theorem Plain.bind {noted : Noted α} {plain : Stage α} {first : α → Noted β} {second : α → Stage β}
    (one : Plain noted plain) (two : ∀ a, Plain (first a) (second a)) :
    Plain (noted >>= first) (plain >>= second) := by
  intro j
  have same := one j
  cases result : noted j with
  | ok a after =>
      rw [result] at same
      rw [Outcome.bind_of_ok result, Outcome.bind_of_ok same.symm]
      exact two a after
  | error stop after =>
      rw [result] at same
      rw [Outcome.bind_of_error result, Outcome.bind_of_error same.symm]
      rfl

theorem Plain.session_bind {first : Session → Noted β} {second : Session → Stage β}
    (rest : ∀ s, Plain (first s) (second s)) : Plain (session >>= first) (get >>= second) :=
  fun j => rest j.session j

theorem plain_pure (a : α) : Plain (return a) (return a) :=
  fun _ => rfl

theorem plain_change (f : Session → Session) : Plain (change f) (modify f) :=
  fun _ => rfl

theorem plain_report (ds : List Diagnostic) : Plain (report ds) (Stage.report ds) :=
  fun _ => rfl

theorem plain_halt : Plain (halt : Noted α) Stage.halt :=
  fun _ => rfl

theorem plain_checkpoint : Plain checkpoint Stage.checkpoint := by
  intro j
  unfold checkpoint Stage.checkpoint
  cases j.session.reporter.checkpoint <;> rfl

theorem plain_dump (text : String) : Plain (dump text) (Stage.dump text) := by
  intro j
  unfold dump Stage.dump
  dsimp only
  cases j.session.machine.output.deliveryFailure? text <;> rfl

theorem plain_dumpIf (asked : Bool) (text : String) :
    Plain (dumpIf asked text) (Stage.dumpIf asked text) := by
  cases asked with
  | false => exact plain_pure ()
  | true => exact plain_dump text

theorem plain_scan (source : String) : Plain (scan source) (Stage.scan source) :=
  fun _ => rfl

theorem plain_parse (tokens : List Token) : Plain (parse tokens) (Stage.parse tokens) := by
  apply Plain.session_bind
  intro s
  apply (plain_change _).bind
  intro _
  apply (plain_report _).bind
  intro _
  cases (Grammar.parse tokens s.nextNode).fatal.isSome with
  | false => exact plain_pure _
  | true => exact plain_halt

theorem plain_resolve (first : NodeId) (program : List Stmt) :
    Plain (resolve first program) (Stage.resolve first program) := by
  apply Plain.session_bind
  intro s
  obtain ⟨fault, bindings⟩ := Lox.resolve s.bindings program
  cases fault with
  | none => exact plain_change _
  | some e => exact (plain_change _).bind fun _ => plain_report _

theorem plain_execute (bound : Nat) (program : List Stmt) :
    Plain (execute bound program) (Stage.execute bound program) := by
  intro j
  unfold execute Stage.execute
  dsimp only
  cases Exec.program (Exec.context j.session.bindings j.session.config.maxCallDepth bound) program
      j.session.machine with
  | ok done machine => rfl
  | error stop machine => cases stop <;> rfl

theorem plain_load (source : String) : Plain (load source) (Stage.load source) := by
  unfold load Stage.load Stage.loadTokens Stage.loadProgram
  simp only [bind_assoc, pure_bind]
  apply Plain.session_bind
  intro s
  apply (plain_scan source).bind
  intro tokens
  apply (plain_dumpIf _ _).bind
  intro _
  apply plain_checkpoint.bind
  intro _
  apply Plain.session_bind
  intro scanned
  apply (plain_parse tokens).bind
  intro program
  apply (plain_dumpIf _ _).bind
  intro _
  apply plain_checkpoint.bind
  intro _
  cases s.config.stopAfterParse with
  | true => exact plain_pure none
  | false =>
      apply (plain_resolve scanned.nextNode program).bind
      intro _
      apply plain_checkpoint.bind
      intro _
      cases s.config.stopAfterResolve with
      | true => exact plain_pure none
      | false => exact plain_pure (some program)

/-- A run goes alike with and without a journal. -/
theorem plain_run (bound : Nat) (source : String) :
    Plain (run bound source) (Stage.run bound source) := by
  rw [Stage.run_eq]
  apply (plain_load source).bind
  intro found
  cases found with
  | none => exact plain_pure ()
  | some program => exact (plain_execute bound program).bind fun _ => plain_checkpoint

end Noted
end Lox
