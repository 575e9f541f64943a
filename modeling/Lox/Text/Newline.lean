set_option autoImplicit false

/-! Line ends. A carriage return before a newline is dropped; any other is kept. -/

namespace Lox.Text

/-- Moves characters to the front part, latest first, without the carriage returns of line ends. -/
def plainFrom : List Char → List Char → List Char
  | front, '\r' :: '\n' :: rest => plainFrom ('\n' :: front) rest
  | front, c :: rest => plainFrom (c :: front) rest
  | front, [] => front.reverse

def plainNewlines (text : List Char) : List Char :=
  plainFrom [] text

/-- Bytes cut after each newline: the pieces so far and the bytes of the current one, both latest
first. -/
def byteLinesFrom : List (List UInt8) → List UInt8 → List UInt8 → List (List UInt8)
  | lines, [], [] => lines.reverse
  | lines, line, [] => (line.reverse :: lines).reverse
  | lines, line, byte :: rest =>
    if byte = 10 then byteLinesFrom ((byte :: line).reverse :: lines) [] rest
    else byteLinesFrom lines (byte :: line) rest

/-- The lines of some bytes, each with its newline; the last may have none. -/
def byteLines (bytes : List UInt8) : List (List UInt8) :=
  byteLinesFrom [] [] bytes

end Lox.Text
