import Lox.CommandLine.FileTree
import Lox.CommandLine.Options
import Lox.Text.Quoted

set_option autoImplicit false

/-! What the command does, given what it can read: a source, a file or the lines of its input are
run in one session, and the way the last run ended decides the exit status. -/

namespace Lox.CommandLine

structure Input where
  file : String → Except FileFault ByteArray
  lines : ByteArray

inductive Failure where
  | file (name : String) (fault : FileFault)
  | fileEncoding (name : String)
  | lineEncoding
deriving Repr, DecidableEq, Inhabited

def Failure.context : Failure → String
  | file name fault => "Failed to " ++ fault.action ++ " file " ++ Text.quoted name
  | fileEncoding name => "Failed to read file " ++ Text.quoted name
  | lineEncoding => "Failed to read from stdin"

def Failure.cause : Failure → String
  | file _ fault => fault.message
  | fileEncoding _ => "stream did not contain valid UTF-8"
  | lineEncoding => "stream did not contain valid UTF-8"

def Failure.text (failure : Failure) : String :=
  "Error: " ++ failure.context ++ "\n\nCaused by:\n    " ++ failure.cause ++ "\n"

/-- What the command leaves behind. Nothing is said here about the wording of usage errors. -/
structure Outcome where
  status : Nat
  output : String
  errors : String
deriving Repr, DecidableEq, Inhabited

def version : String := "loxwalk 0.1.0\n"

def usage : String :=
  "Usage: loxwalk [OPTIONS] [FILENAME]\n\nOptions:\n  -c <SOURCE>\n  --dbg <OPTION>\n" ++
    "  --dump-format <FORMAT>\n  --log\n  -h, --help\n  -V, --version\n"

def prompt : String := ">>> "

def newSession (config : Config) : Session :=
  Session.new config .unlimited .unlimited

def say (session : Session) (text : String) : Session :=
  { session with
    machine := { session.machine with output := session.machine.output.accept text } }

/-- What a session has written and shown, and the session without it. -/
def drain (session : Session) : (String × String) × Session :=
  ((session.machine.output.text, session.reporter.sink.text),
    { session with
      machine := { session.machine with output := .unlimited }
      reporter := { session.reporter with sink := .unlimited } })

/-- Runs lines, each after a prompt, until one is no text; says whether all were. -/
def runLines (bound : Nat) : Session → List (List UInt8) → Option (Bool × Session)
  | session, [] => some (true, say session (prompt ++ "\n"))
  | session, line :: rest =>
    let session := say session prompt
    match String.fromUTF8? ⟨line.toArray⟩ with
    | none => some (false, session)
    | some source =>
      match session.run bound source with
      | none => none
      | some (_, session) => runLines bound session rest

def statusOf : Option Exit → Nat
  | none => 0
  | some exit => exit.status

def Outcome.ofSession (status : Nat) (session : Session) : Outcome :=
  ⟨status, session.machine.output.text, session.reporter.sink.text⟩

/-- A failure comes after whatever the session has written. -/
def Outcome.fail (session : Session) (failure : Failure) : Outcome :=
  ⟨1, session.machine.output.text, session.reporter.sink.text ++ failure.text⟩

def runSource (bound : Nat) (options : Options) (source : String) : Option Outcome :=
  match (newSession options.config).run bound source with
  | none => none
  | some (ended, session) => some (.ofSession (statusOf ended) session)

def readFile (input : Input) (name : String) : Except Failure String :=
  match input.file name with
  | .error fault => .error (.file name fault)
  | .ok bytes =>
    match String.fromUTF8? bytes with
    | some source => .ok source
    | none => .error (.fileEncoding name)

def runOptions (bound : Nat) (input : Input) (options : Options) : Option Outcome :=
  match options.source, options.file with
  | some source, _ => runSource bound options source
  | none, some name =>
    match readFile input name with
    | .ok source => runSource bound options source
    | .error failure => some (.fail (newSession options.config) failure)
  | none, none =>
    match runLines bound (newSession options.config) (Text.byteLines input.lines.toList) with
    | none => none
    | some (true, session) => some (.ofSession 0 session)
    | some (false, session) => some (.fail session .lineEncoding)

/-- Does what arguments ask for; there is no answer if the bound was exceeded. -/
def run (bound : Nat) (input : Input) (arguments : List String) : Option Outcome :=
  match Request.ofArguments arguments with
  | .error e => some ⟨2, "", "error: " ++ e.message ++ "\n"⟩
  | .ok .version => some ⟨0, version, ""⟩
  | .ok .help => some ⟨0, usage, ""⟩
  | .ok (.run options) => runOptions bound input options

end Lox.CommandLine
