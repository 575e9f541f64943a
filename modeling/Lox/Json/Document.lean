import Lox.Decimal.Notation

set_option autoImplicit false

/-! JSON documents and their two written forms: compact, without any space, and indented by two
spaces with one element or field on each line. -/

namespace Lox

inductive Json where
  | null
  | natural (n : Nat)
  | number (x : Float)
  | string (s : String)
  | array (elements : List Json)
  | object (fields : List (String × Json))
deriving Repr, Inhabited

namespace Json

/-- Exponents of the first digit from -5 to 15 are written positionally, always with a point, and a
tie between two shortest decimals goes to the even digit. -/
def numberStyle : Decimal.Style where
  whole := .pointed
  tie := .even
  positional := some (-5, 15)
  nan := "null"
  infinity := "null"
  minusInfinity := "null"

def hexDigit (n : Nat) : Char :=
  if n < 10 then Char.ofNat ('0'.toNat + n) else Char.ofNat ('a'.toNat + (n - 10))

/-- Only the quote, the backslash and control characters below U+0020 are escaped. -/
def escape (c : Char) : String :=
  if c = '"' then "\\\""
  else if c = '\\' then "\\\\"
  else if c = '\x08' then "\\b"
  else if c = '\t' then "\\t"
  else if c = '\n' then "\\n"
  else if c = '\x0c' then "\\f"
  else if c = '\r' then "\\r"
  else if c.toNat < 0x20 then
    "\\u00" ++ String.ofList [hexDigit (c.toNat / 16), hexDigit (c.toNat % 16)]
  else String.singleton c

def quote (s : String) : String :=
  s.toList.foldl (fun out c => out ++ escape c) "\"" ++ "\""

def newline (depth : Nat) : String :=
  "\n" ++ String.ofList (List.replicate (2 * depth) ' ')

mutual

def appendCompact (out : String) : Json → String
  | null => out ++ "null"
  | natural n => out ++ toString n
  | number x => out ++ Decimal.format numberStyle x
  | string s => out ++ quote s
  | array elements => appendElements (out ++ "[") true elements ++ "]"
  | object fields => appendFields (out ++ "\x7b") true fields ++ "\x7d"

def appendElements (out : String) (first : Bool) : List Json → String
  | [] => out
  | element :: rest =>
    appendElements (appendCompact (if first then out else out ++ ",") element) false rest

def appendFields (out : String) (first : Bool) : List (String × Json) → String
  | [] => out
  | (name, value) :: rest =>
    appendFields
      (appendCompact ((if first then out else out ++ ",") ++ quote name ++ ":") value) false rest

end

def compact (document : Json) : String :=
  appendCompact "" document

mutual

def appendPretty (depth : Nat) (out : String) : Json → String
  | null => out ++ "null"
  | natural n => out ++ toString n
  | number x => out ++ Decimal.format numberStyle x
  | string s => out ++ quote s
  | array [] => out ++ "[]"
  | array (element :: rest) =>
    appendLines (depth + 1) (appendPretty (depth + 1) (out ++ "[" ++ newline (depth + 1)) element)
      rest ++ newline depth ++ "]"
  | object [] => out ++ "\x7b\x7d"
  | object ((name, value) :: rest) =>
    appendFieldLines (depth + 1)
      (appendPretty (depth + 1)
        (out ++ "\x7b" ++ newline (depth + 1) ++ quote name ++ ": ") value)
      rest ++ newline depth ++ "\x7d"

def appendLines (depth : Nat) (out : String) : List Json → String
  | [] => out
  | element :: rest =>
    appendLines depth (appendPretty depth (out ++ "," ++ newline depth) element) rest

def appendFieldLines (depth : Nat) (out : String) : List (String × Json) → String
  | [] => out
  | (name, value) :: rest =>
    appendFieldLines depth
      (appendPretty depth (out ++ "," ++ newline depth ++ quote name ++ ": ") value) rest

end

/-- A document with one element or field on each line. -/
def pretty (document : Json) : String :=
  appendPretty 0 "" document

end Json
end Lox
