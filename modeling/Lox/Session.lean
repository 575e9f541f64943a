import Lox.Grammar.Program
import Lox.Machine.Evaluate
import Lox.Reporter
import Lox.Scope.Resolve
import Lox.Syntax.Document
import Lox.Syntax.SExpr
import Lox.Text.Newline
import Lox.Token.Listing
import Lox.Token.Scan

set_option autoImplicit false

/-! Sessions. A session runs one source after another: it reads tokens, reads a program, resolves
its names and executes it, and stops at the first stage that has something to report. Variables,
objects, bindings, node numbers and the texts of all runs outlive a run. -/

namespace Lox

inductive DumpFormat where
  | text
  | json
deriving Repr, DecidableEq, Inhabited

structure Config where
  dumpTokens : Bool := false
  dumpAst : Bool := false
  stopAfterParse : Bool := false
  stopAfterResolve : Bool := false
  dumpFormat : DumpFormat := .text
  style : ReportStyle := .full
  maxCallDepth : Nat := 1000
deriving Repr, Inhabited

structure Session where
  config : Config
  reporter : Reporter
  machine : Machine
  bindings : Bindings
  nextNode : NodeId
deriving Inhabited

/-- Why a run ends early: its errors, or more rounds and calls than were allowed. -/
inductive Halt where
  | exit (exit : Exit)
  | exhausted
deriving Repr, Inhabited

abbrev Stage (α : Type) := EStateM Halt Session α

def DumpFormat.tokens (format : DumpFormat) (tokens : List Token) : String :=
  match format with
  | .text => tokens.foldl (fun out t => out ++ t.display ++ "\n") ""
  | .json => (Json.array (tokens.map Token.toJson)).pretty ++ "\n"

def DumpFormat.program (format : DumpFormat) (program : List Stmt) : String :=
  match format with
  | .text => program.foldl (fun out s => out ++ s.toSExpr ++ "\n") ""
  | .json => (Stmt.programToJson program).pretty ++ "\n"

namespace Stage

def report (ds : List Diagnostic) : Stage Unit :=
  modify fun s => { s with reporter := s.reporter.reportAll ds }

def halt {α : Type} : Stage α := fun s =>
  .error (.exit s.reporter.exit) s

def checkpoint : Stage Unit := fun s =>
  match s.reporter.checkpoint with
  | none => .ok () s
  | some exit => .error (.exit exit) s

/-- Delivers a listing to the output. A run whose listing cannot be delivered ends. -/
def dump (text : String) : Stage Unit := fun s =>
  let failure := s.machine.output.deliveryFailure? text
  let s := { s with machine := { s.machine with output := s.machine.output.accept text } }
  match failure with
  | none => .ok () s
  | some failure =>
    (do
      report [(RuntimeError.outputFailed failure).diagnostic]
      halt) s

def scan (source : String) : Stage (List Token) := do
  let text := Text.plainNewlines source.toList
  let base := (← get).reporter.nextBase
  modify fun s => { s with reporter := s.reporter.addSource (String.ofList text) }
  let items := Token.scan base text
  report (items.filterMap fun item => item.error?.map (·.diagnostic))
  return items.filterMap (·.token?)

/-- Reads a program. Its node numbers are used up even if it is wrong. -/
def parse (tokens : List Token) : Stage (List Stmt) := do
  let parse := Grammar.parse tokens (← get).nextNode
  modify fun s => { s with nextNode := parse.nextId }
  report parse.diagnostics
  if parse.fatal.isSome then halt else return parse.statements

/-- Resolves a program whose nodes are numbered from `first`. A program that is refused leaves no
binding. -/
def resolve (first : NodeId) (program : List Stmt) : Stage Unit := do
  match Lox.resolve (← get).bindings program with
  | (none, bindings) => modify fun s => { s with bindings }
  | (some e, bindings) =>
    modify fun s => { s with bindings := bindings.forgetFrom first }
    report [e.diagnostic]

def execute (bound : Nat) (program : List Stmt) : Stage Unit := fun s =>
  let context := Exec.context s.bindings s.config.maxCallDepth bound
  match Exec.program context program s.machine with
  | .ok _ machine => .ok () { s with machine }
  | .error (.error e) machine => report [e.diagnostic] { s with machine }
  | .error .exhausted machine => .error .exhausted { s with machine }

def run (bound : Nat) (source : String) : Stage Unit := do
  let config := (← get).config
  let tokens ← scan source
  if config.dumpTokens then
    dump (config.dumpFormat.tokens tokens)
  checkpoint
  let first := (← get).nextNode
  let program ← parse tokens
  if config.dumpAst then
    dump (config.dumpFormat.program program)
  checkpoint
  if config.stopAfterParse then
    return ()
  resolve first program
  checkpoint
  if config.stopAfterResolve then
    return ()
  execute bound program
  checkpoint

end Stage

namespace Session

def new (config : Config) (output errors : Sink) : Session where
  config := config
  reporter := Reporter.new config.style errors
  machine := Machine.new output
  bindings := Bindings.empty
  nextNode := 0

/-- Runs a source, with at most so many calls nested and rounds of a loop. Yields how the run ended,
nothing standing for success; there is no answer if the bound was exceeded. -/
def run (session : Session) (bound : Nat) (source : String) : Option (Option Exit × Session) :=
  match Stage.run bound source session with
  | .ok _ session => some (none, session)
  | .error (.exit exit) session => some (some exit, session)
  | .error .exhausted _ => none

def resetScopes (session : Session) : Session :=
  { session with machine := session.machine.reset }

end Session
end Lox
