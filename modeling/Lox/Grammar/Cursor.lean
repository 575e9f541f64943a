import Lox.Grammar.Fault
import Lox.Syntax.Basic

set_option autoImplicit false

/-! The place of a reader in a row of tokens. A rule of the grammar is a function on cursors; one
that fails leaves the cursor where it failed, with the node numbers it has given out and the errors
it has recorded, so that reading can go on from there. -/

namespace Lox

/-- Tokens that a rule can ask for by name: all but literals and the end of the input. -/
inductive Terminal where
  | symbol (symbol : Symbol)
  | keyword (keyword : Keyword)
  | name
deriving Repr, DecidableEq, Inhabited

def Token.terminal? (token : Token) : Option Terminal :=
  match token.kind with
  | .symbol s => some (.symbol s)
  | .keyword k => some (.keyword k)
  | .identifier => some .name
  | _ => none

def Token.isEnd (token : Token) : Bool :=
  match token.kind with
  | .endOfInput => true
  | _ => false

namespace Grammar

/-- The tokens that are still to be read, the token that ends them, the next free node number, and
the errors from which reading has recovered, latest first. -/
structure Cursor where
  pending : List Token
  stop : Token
  nextId : NodeId
  recorded : List SyntaxError
deriving Repr, Inhabited

/-- A row of tokens counts up to its first end of input. A row without one ends where its last
token does. -/
def Cursor.ofTokens (tokens : List Token) (firstId : NodeId) : Cursor where
  pending := tokens.takeWhile (!·.isEnd)
  stop := (tokens.find? (·.isEnd)).getD (Token.atEnd (tokens.getLast?.elim 0 (·.offset)))
  nextId := firstId
  recorded := []

def Cursor.next (cursor : Cursor) : Token :=
  cursor.pending.headD cursor.stop

/-- Why a rule yields nothing: an error at some token, or a nesting deeper than was allowed for. -/
inductive Failure where
  | error (error : SyntaxError)
  | exhausted
deriving Repr, Inhabited

abbrev Rule (α : Type) := EStateM Failure Cursor α

namespace Rule

def fail {α : Type} (fault : SyntaxFault) : Rule α := fun cursor =>
  .error (.error ⟨fault, cursor.next⟩) cursor

def failAt {α : Type} (fault : SyntaxFault) (token : Token) : Rule α :=
  throw (.error ⟨fault, token⟩)

def peek : Rule Token := fun cursor =>
  .ok cursor.next cursor

def atEnd : Rule Bool := fun cursor =>
  .ok cursor.pending.isEmpty cursor

/-- Passes one token; the end of the input is never passed. -/
def advance : Rule Unit := fun cursor =>
  .ok () { cursor with pending := cursor.pending.tail }

def check (terminal : Terminal) : Rule Bool := fun cursor =>
  .ok (cursor.pending.head?.bind Token.terminal? == some terminal) cursor

def checkSecond (terminal : Terminal) : Rule Bool := fun cursor =>
  .ok (cursor.pending.tail.head?.bind Token.terminal? == some terminal) cursor

def accept (terminal : Terminal) : Rule Bool := do
  if ← check terminal then
    advance
    return true
  else
    return false

def expect (terminal : Terminal) (fault : SyntaxFault) : Rule Token := do
  if ← check terminal then
    let token ← peek
    advance
    return token
  else
    fail fault

def fresh : Rule NodeId := fun cursor =>
  .ok cursor.nextId { cursor with nextId := cursor.nextId + 1 }

inductive Round (σ α : Type) where
  | again (state : σ)
  | finish (result : α)

/-- Repeats a rule until a round finishes. -/
def iterate {σ α : Type} (round : σ → Rule (Round σ α)) : Nat → σ → Rule α
  | 0, _ => throw .exhausted
  | bound + 1, state => fun cursor =>
    match round state cursor with
    | .ok (.again state) cursor => iterate round bound state cursor
    | .ok (.finish result) cursor => .ok result cursor
    | .error failure cursor => .error failure cursor

end Rule

/-- Keywords with which reading can begin again after an error. -/
def beginsStatement : Terminal → Bool
  | .keyword .classWord | .keyword .funWord | .keyword .varWord | .keyword .forWord
  | .keyword .ifWord | .keyword .whileWord | .keyword .switchWord | .keyword .printWord
  | .keyword .returnWord => true
  | _ => false

/-- The tokens from the first one that follows a semicolon or begins a statement. -/
def resume : Token → List Token → List Token
  | _, [] => []
  | passed, token :: rest =>
    if passed.terminal? == some (.symbol .semicolon) || token.terminal?.any beginsStatement then
      token :: rest
    else resume token rest

/-- Passes the token at which an error was caught, whatever it is, and then as many more as it
takes to stand at the beginning of a statement. -/
def Cursor.synchronize (cursor : Cursor) : Cursor :=
  match cursor.pending with
  | [] => cursor
  | token :: rest => { cursor with pending := resume token rest }

/-- Records an error that is not fatal and goes on at the next statement. -/
def recover {α : Type} (rule : Rule α) : Rule (Option α) := fun cursor =>
  match rule cursor with
  | .ok result cursor => .ok (some result) cursor
  | .error (.error e) cursor =>
    if e.fault.isFatal then .error (.error e) cursor
    else .ok none { cursor with recorded := e :: cursor.recorded }.synchronize
  | .error .exhausted cursor => .error .exhausted cursor

end Grammar
end Lox
