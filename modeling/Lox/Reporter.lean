import Lox.Diagnostic
import Lox.Sink
import Lox.Text.Position

set_option autoImplicit false

/-! The reporter shows diagnostics against the texts of a session and counts them for each run.
Each text begins one byte after the end of the text before it, so that every position, ends of
input included, belongs to one text. -/

namespace Lox

inductive ReportStyle where
  /-- The line, a row of carets under the place, and the message. -/
  | full
  /-- One line that names the place. -/
  | reduced
deriving Repr, DecidableEq, Inhabited

/-- A text and the position of its first byte. -/
structure SourceText where
  base : Nat
  text : String
deriving Repr, DecidableEq, Inhabited

structure Exit where
  errors : Nat
  runtime : Bool
deriving Repr, DecidableEq, Inhabited

def Exit.status (exit : Exit) : Nat :=
  if exit.runtime then 70 else 65

def Exit.text (exit : Exit) : String :=
  "run halted after " ++ toString exit.errors ++ " error(s)"

/-- The texts of a session, latest first, the sink for diagnostics, the number of diagnostics of
the current run, and whether one of them arose during execution. -/
structure Reporter where
  sources : List SourceText
  style : ReportStyle
  sink : Sink
  errors : Nat
  runtimeFailure : Bool
deriving Inhabited

def Diagnostic.render (style : ReportStyle) (source : List Char) (start : Nat) (length : Nat)
    (d : Diagnostic) : String :=
  let place := Text.locate source start
  let covered := Text.slice? source start length
  let line := toString place.line
  match style with
  | .full =>
    let carets := max (covered.elim 1 List.length) 1
    let margin := line.length + " | ".length + place.column
    "\n\t" ++ line ++ " | " ++ String.ofList place.text ++ "\n\t" ++
      String.ofList (List.replicate margin ' ') ++ String.ofList (List.replicate carets '^') ++
      "\n" ++ d.kind.name ++ ": Line " ++ line ++ ": " ++ d.message ++ "\n"
  | .reduced =>
    let shown := match covered with
      | some (c :: rest) => "'" ++ String.ofList (c :: rest) ++ "'"
      | _ => "end"
    "[line " ++ line ++ "] " ++ d.kind.name ++ " at " ++ shown ++ ": " ++ d.message ++ "\n"

namespace Reporter

def new (style : ReportStyle) (sink : Sink) : Reporter :=
  ⟨[], style, sink, 0, false⟩

def nextBase (reporter : Reporter) : Nat :=
  match reporter.sources with
  | [] => 0
  | last :: _ => last.base + last.text.utf8ByteSize + 1

/-- Starts a run over a further text. -/
def addSource (reporter : Reporter) (text : String) : Reporter :=
  { reporter with
    sources := ⟨reporter.nextBase, text⟩ :: reporter.sources
    errors := 0
    runtimeFailure := false }

/-- Starts a run over one text alone. -/
def setSource (reporter : Reporter) (text : String) : Reporter :=
  { reporter with sources := [] }.addSource text

/-- The text that a position belongs to, and the position within it. -/
def sourceAt (reporter : Reporter) (position : Nat) : String × Nat :=
  match reporter.sources.find? (·.base ≤ position) with
  | some source => (source.text, position - source.base)
  | none => ("", 0)

def render (reporter : Reporter) (d : Diagnostic) : String :=
  match d.span with
  | none => d.kind.name ++ ": " ++ d.message ++ "\n"
  | some span =>
    let (text, start) := reporter.sourceAt span.start
    d.render reporter.style text.toList start span.length

/-- How the current run ends if it ends now because of its errors. -/
def exit (reporter : Reporter) : Exit :=
  ⟨reporter.errors, reporter.runtimeFailure⟩

/-- Shows and counts a diagnostic. That a sink fails is not shown anywhere. -/
def report (reporter : Reporter) (d : Diagnostic) : Reporter :=
  let rendered := reporter.render d
  { reporter with
    sink := reporter.sink.accept rendered
    errors := reporter.errors + 1
    runtimeFailure := reporter.runtimeFailure || d.isRuntime }

def reportAll (reporter : Reporter) (ds : List Diagnostic) : Reporter :=
  ds.foldl report reporter

/-- Nothing, if the current run has no errors so far. -/
def checkpoint (reporter : Reporter) : Option Exit :=
  if reporter.errors = 0 then none else some reporter.exit

end Reporter
end Lox
