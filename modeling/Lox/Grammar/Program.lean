import Lox.Grammar.Statement

set_option autoImplicit false

/-! Programs. The rules of the grammar refer to each other; how deep they do is bounded by the
number of tokens, since at most three rules follow one another before a token is passed. -/

namespace Lox.Grammar

mutual

def expression : Nat → Level → Rule Expr
  | 0, _ => throw .exhausted
  | depth + 1, min =>
    Rules.expressionAt ⟨depth, expression depth, statement depth, declaration depth⟩ min

def statement : Nat → Rule Stmt
  | 0 => throw .exhausted
  | depth + 1 =>
    Rules.statementRule ⟨depth, expression depth, statement depth, declaration depth⟩

def declaration : Nat → Rule (Option Stmt)
  | 0 => throw .exhausted
  | depth + 1 =>
    Rules.declarationRule ⟨depth, expression depth, statement depth, declaration depth⟩

end

/-- A depth that no row of so many tokens exceeds. -/
def depthFor (tokens : Nat) : Nat :=
  4 * (tokens + 1)

def Cursor.depth (cursor : Cursor) : Nat :=
  depthFor cursor.pending.length

def programRound (depth : Nat) (found : List Stmt) :
    Rule (Rule.Round (List Stmt) (List Stmt)) := do
  if ← Rule.atEnd then
    return .finish found.reverse
  else
    match ← declaration depth with
    | some stmt => return .again (stmt :: found)
    | none => return .again found

def program : Rule (List Stmt) := fun cursor =>
  Rule.iterate (programRound cursor.depth) cursor.depth [] cursor

/-- What reading a program yields: its statements, the errors from which reading recovered in the
order in which they were met, the error that stopped it, and the next free node number. -/
structure Parse where
  statements : List Stmt
  recorded : List SyntaxError
  fatal : Option SyntaxError
  nextId : NodeId
deriving Inhabited

/-- All errors in the order in which they are shown; the one that stopped reading is the last. -/
def Parse.errors (parse : Parse) : List SyntaxError :=
  parse.recorded ++ parse.fatal.toList

def Parse.diagnostics (parse : Parse) : List Diagnostic :=
  parse.errors.map (·.diagnostic)

def Cursor.parse (cursor : Cursor) : Parse :=
  match program cursor with
  | .ok statements cursor => ⟨statements, cursor.recorded.reverse, none, cursor.nextId⟩
  | .error (.error e) cursor => ⟨[], cursor.recorded.reverse, some e, cursor.nextId⟩
  | .error .exhausted cursor => ⟨[], cursor.recorded.reverse, none, cursor.nextId⟩

def parse (tokens : List Token) (firstId : NodeId) : Parse :=
  (Cursor.ofTokens tokens firstId).parse

/-- Reads one expression whose operators bind tighter than `min`. The cursor that is left shows
where reading can go on, whether an expression was found or not. -/
def parseExpression (min : Level) (cursor : Cursor) : EStateM.Result Failure Cursor Expr :=
  expression cursor.depth min cursor

end Lox.Grammar
