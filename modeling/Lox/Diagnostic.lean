import Lox.Token.Basic

set_option autoImplicit false

/-! Diagnostics: what every stage of a run has to say about a program that is wrong. -/

namespace Lox

inductive Diagnostic.Kind where
  | lexical
  | grammatical
  | resolution
  | runtime
  | output
deriving Repr, DecidableEq, Inhabited

def Diagnostic.Kind.name : Diagnostic.Kind → String
  | lexical => "LexicalError"
  | grammatical => "SyntaxError"
  | resolution => "ResolutionError"
  | runtime => "RuntimeError"
  | output => "IoError"

/-- One diagnostic. Output failures have no place in the source. A fatal diagnostic ends its run. -/
structure Diagnostic where
  kind : Diagnostic.Kind
  message : String
  span : Option Span
  fatal : Bool
deriving Repr, DecidableEq, Inhabited

def Diagnostic.isRuntime (d : Diagnostic) : Bool :=
  d.kind == .runtime || d.kind == .output

end Lox
