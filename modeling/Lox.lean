import Lox.CommandLine.Directory
import Lox.CommandLine.FileTree
import Lox.CommandLine.Options
import Lox.CommandLine.Run
import Lox.Decimal.Double
import Lox.Decimal.Notation
import Lox.Decimal.Shortest
import Lox.Diagnostic
import Lox.Environment
import Lox.Grammar.Cursor
import Lox.Grammar.Expression
import Lox.Grammar.Fault
import Lox.Grammar.Function
import Lox.Grammar.Level
import Lox.Grammar.Program
import Lox.Grammar.Statement
import Lox.Json.Document
import Lox.Machine.Evaluate
import Lox.Machine.State
import Lox.Main
import Lox.Proofs.Blame.Carets
import Lox.Proofs.Blame.Code
import Lox.Proofs.Blame.Course
import Lox.Proofs.Blame.Place
import Lox.Proofs.Blame.Reading
import Lox.Proofs.Chronicle.Book
import Lox.Proofs.Chronicle.Changes
import Lox.Proofs.Chronicle.Failure
import Lox.Proofs.Chronicle.Instances
import Lox.Proofs.Chronicle.Interpreter
import Lox.Proofs.Chronicle.Methods
import Lox.Proofs.Chronicle.Operations
import Lox.Proofs.Chronicle.Properties
import Lox.Proofs.Chronicle.Session
import Lox.Proofs.Decimal.Numeral
import Lox.Proofs.Decimal.Rounding
import Lox.Proofs.Decimal.Shortest
import Lox.Proofs.Depth.Agreement
import Lox.Proofs.Depth.Load
import Lox.Proofs.Depth.Shorter
import Lox.Proofs.Derivation.Accepts
import Lox.Proofs.Derivation.Append
import Lox.Proofs.Derivation.Clauses
import Lox.Proofs.Derivation.Declaration
import Lox.Proofs.Derivation.Grammar
import Lox.Proofs.Derivation.Growth
import Lox.Proofs.Derivation.Longer
import Lox.Proofs.Derivation.Parts
import Lox.Proofs.Derivation.Persist
import Lox.Proofs.Derivation.Program
import Lox.Proofs.Derivation.Select
import Lox.Proofs.Derivation.Statement
import Lox.Proofs.Derivation.Switch
import Lox.Proofs.Dump.Agreement
import Lox.Proofs.Dump.Datum
import Lox.Proofs.Dump.Legible
import Lox.Proofs.Dump.Reading
import Lox.Proofs.Environment.Sharing
import Lox.Proofs.Grammar.Assembly
import Lox.Proofs.Grammar.Expression
import Lox.Proofs.Grammar.Orderly
import Lox.Proofs.Grammar.Program
import Lox.Proofs.Grammar.Promise
import Lox.Proofs.Grammar.Statement
import Lox.Proofs.Halting.Agreement
import Lox.Proofs.Halting.Loopless
import Lox.Proofs.Layered.Agreement
import Lox.Proofs.Layered.Layers
import Lox.Proofs.Layered.Loop
import Lox.Proofs.Layered.Operand
import Lox.Proofs.Lexical.Agreement
import Lox.Proofs.Lexical.Closures
import Lox.Proofs.Lexical.Lockstep
import Lox.Proofs.Lexical.Memory
import Lox.Proofs.Lexical.Names
import Lox.Proofs.Lexical.Operations
import Lox.Proofs.Lexical.Placement
import Lox.Proofs.Lexical.Program
import Lox.Proofs.Lexical.Run
import Lox.Proofs.Lexical.Shared
import Lox.Proofs.Lexical.Statements
import Lox.Proofs.Lexical.World
import Lox.Proofs.Limit.Agreement
import Lox.Proofs.Limit.Curtailed
import Lox.Proofs.Limit.History
import Lox.Proofs.Limit.Run
import Lox.Proofs.Limit.Sink
import Lox.Proofs.Lines.Agreement
import Lox.Proofs.Lines.Course
import Lox.Proofs.Lines.Ledger
import Lox.Proofs.Lines.Load
import Lox.Proofs.Lines.Top
import Lox.Proofs.Loop.Agreement
import Lox.Proofs.Loop.Code
import Lox.Proofs.Loop.Direct
import Lox.Proofs.Loop.Mirror
import Lox.Proofs.Loop.Operations
import Lox.Proofs.Loop.Pairing
import Lox.Proofs.Loop.Run
import Lox.Proofs.Machine.Cells
import Lox.Proofs.Machine.Frank
import Lox.Proofs.Machine.Guarded
import Lox.Proofs.Machine.Keeps
import Lox.Proofs.Machine.Operations
import Lox.Proofs.Machine.Parallel
import Lox.Proofs.Machine.Presence
import Lox.Proofs.Machine.Sound
import Lox.Proofs.Outcome
import Lox.Proofs.Position.Agreement
import Lox.Proofs.Position.Books
import Lox.Proofs.Position.Follows
import Lox.Proofs.Position.Recovery
import Lox.Proofs.Position.Resumption
import Lox.Proofs.Position.Survival
import Lox.Proofs.Position.Walk
import Lox.Proofs.Reading.Abreast
import Lox.Proofs.Reading.Expression
import Lox.Proofs.Reading.Program
import Lox.Proofs.Receiver.Agreement
import Lox.Proofs.Receiver.Program
import Lox.Proofs.Receiver.Steady
import Lox.Proofs.Receiver.Tidy
import Lox.Proofs.Receiver.Watched
import Lox.Proofs.Return.Functions
import Lox.Proofs.Return.Returns
import Lox.Proofs.Return.Run
import Lox.Proofs.Return.Strict
import Lox.Proofs.Scope.Binding
import Lox.Proofs.Scope.Fault
import Lox.Proofs.Scope.Path
import Lox.Proofs.Scope.Place
import Lox.Proofs.Scope.Sight
import Lox.Proofs.Session.Exit
import Lox.Proofs.Session.Journal
import Lox.Proofs.Session.Load
import Lox.Proofs.Session.Presence
import Lox.Proofs.Session.Rounds
import Lox.Proofs.Session.Slots
import Lox.Proofs.Switch.Agreement
import Lox.Proofs.Switch.Beside
import Lox.Proofs.Switch.Code
import Lox.Proofs.Switch.Direct
import Lox.Proofs.Switch.Names
import Lox.Proofs.Switch.Operations
import Lox.Proofs.Switch.Run
import Lox.Proofs.Syntax.Likeness
import Lox.Proofs.Syntax.Orderly
import Lox.Proofs.Syntax.Regular
import Lox.Proofs.Syntax.Within
import Lox.Proofs.Tandem.Agreement
import Lox.Proofs.Tandem.Steps
import Lox.Proofs.Text.Location
import Lox.Proofs.Token.Cut
import Lox.Proofs.Token.Juncture
import Lox.Proofs.Token.Lexeme
import Lox.Proofs.Token.Lines
import Lox.Proofs.Token.Spacing
import Lox.Proofs.Token.Spelling
import Lox.Proofs.Token.Tiling
import Lox.Proofs.Trace.Balance
import Lox.Proofs.Trace.Declared
import Lox.Proofs.Trace.Globals
import Lox.Proofs.Trace.Record
import Lox.Proofs.Trace.Restore
import Lox.Proofs.Trace.Secluded
import Lox.Proofs.Trace.Session
import Lox.Proofs.Twin.Evaluate
import Lox.Proofs.Twin.History
import Lox.Proofs.Twin.Machine
import Lox.Proofs.Twin.Operations
import Lox.Proofs.Twin.Program
import Lox.Proofs.Twin.Reporter
import Lox.Proofs.Twin.Resolve
import Lox.Proofs.Twin.Scopes
import Lox.Proofs.Twin.Settle
import Lox.Proofs.Twin.Stage
import Lox.Proofs.Twin.Tokens
import Lox.Proofs.Twin.Undisturbed
import Lox.Reporter
import Lox.Scope.Bindings
import Lox.Scope.Resolve
import Lox.Session
import Lox.Sink
import Lox.Syntax.Basic
import Lox.Syntax.Document
import Lox.Syntax.SExpr
import Lox.Table
import Lox.Text.Alphabet
import Lox.Text.Bytes
import Lox.Text.Newline
import Lox.Text.Position
import Lox.Text.Quoted
import Lox.Text.Visible
import Lox.Token.Basic
import Lox.Token.Listing
import Lox.Token.Scan
import Lox.Value.Basic
import Lox.Value.Operator
