import Lox.Text.Visible

set_option autoImplicit false

/-! Names between quotes, written so that each of their characters can be seen: a quote or a
backslash does not stand alone, and what would not show on its own is given by its code point. -/

namespace Lox.Text

def codePointEscape (c : Char) : String :=
  "\\u\x7b" ++ String.ofList (Nat.toDigits 16 c.toNat) ++ "\x7d"

/-- A character of a quoted name. A few controls have a letter of their own. -/
def quotedChar (c : Char) : String :=
  if c = '"' then "\\\""
  else if c = '\\' then "\\\\"
  else if c = '\n' then "\\n"
  else if c = '\r' then "\\r"
  else if c = '\t' then "\\t"
  else if c = '\x00' then "\\0"
  else if isExtender c || isUnprintable c then codePointEscape c
  else String.singleton c

def quoted (name : String) : String :=
  "\"" ++ String.join (name.toList.map quotedChar) ++ "\""

end Lox.Text
