import Lox.Text.Bytes

set_option autoImplicit false

/-! Lines and columns. A byte position of a text belongs to the line that its preceding newlines
choose; the column counts the characters before it on that line. -/

namespace Lox.Text

structure Location where
  /-- Lines count from one. -/
  line : Nat
  /-- Characters before the place on its line. -/
  column : Nat
  /-- The whole line, without its newline. -/
  text : List Char
deriving Repr, DecidableEq, Inhabited

/-- What a text says after its last newline. -/
def lastLine (text : List Char) : List Char :=
  (text.reverse.takeWhile (· != '\n')).reverse

/-- The place of a byte position. A position past the end means the end; one inside a character
counts the bytes since the start of the line instead of characters. -/
def locate (source : List Char) (position : Nat) : Location :=
  let cut := cutAt source (min position (byteLength source))
  let onLine := lastLine cut.before
  { line := cut.before.count '\n' + 1
    column := if cut.excess = 0 then onLine.length else byteLength onLine + cut.excess
    text := onLine ++ cut.after.takeWhile (· != '\n') }

end Lox.Text
