import Lox.Decimal.Double
import Lox.Diagnostic
import Lox.Text.Alphabet

set_option autoImplicit false

/-! Reading tokens. At each place of the text stands a gap, a token or a fault, whichever reaches
furthest; reading continues after it, and the end of the text is a token of its own. -/

namespace Lox

inductive LexicalFault where
  | unexpected (c : Char)
  | unterminated
deriving Repr, DecidableEq, Inhabited

def LexicalFault.message : LexicalFault → String
  | unexpected c => "Unexpected character '" ++ String.singleton c ++ "'."
  | unterminated => "Unterminated string."

structure LexicalError where
  fault : LexicalFault
  span : Span
deriving Repr, DecidableEq, Inhabited

def LexicalError.diagnostic (e : LexicalError) : Diagnostic :=
  ⟨.lexical, e.fault.message, some e.span, false⟩

namespace Token

/-- Blanks between tokens. Other control characters of ASCII are not blanks. -/
def isBlank (c : Char) : Bool :=
  c == ' ' || c == '\t' || c == '\r' || c == '\n' || Text.isWideBlank c

def isNameStart (c : Char) : Bool :=
  c.isAlpha || c == '_' || Text.isWideLetter c

def isNamePart (c : Char) : Bool :=
  c.isAlphanum || c == '_' || Text.isWideLetter c || Text.isWideNumeric c

/-- The longest symbol at the front of a text, and the text after it. -/
def readSymbol? : List Char → Option (Symbol × List Char)
  | '(' :: rest => some (.leftParen, rest)
  | ')' :: rest => some (.rightParen, rest)
  | '{' :: rest => some (.leftBrace, rest)
  | '}' :: rest => some (.rightBrace, rest)
  | ',' :: rest => some (.comma, rest)
  | '.' :: rest => some (.dot, rest)
  | '-' :: rest => some (.minus, rest)
  | '+' :: rest => some (.plus, rest)
  | ';' :: rest => some (.semicolon, rest)
  | ':' :: rest => some (.colon, rest)
  | '?' :: rest => some (.question, rest)
  | '/' :: rest => some (.slash, rest)
  | '*' :: '*' :: rest => some (.starStar, rest)
  | '*' :: rest => some (.star, rest)
  | '!' :: '=' :: rest => some (.bangEqual, rest)
  | '!' :: rest => some (.bang, rest)
  | '<' :: '=' :: rest => some (.lessEqual, rest)
  | '<' :: rest => some (.less, rest)
  | '>' :: '=' :: rest => some (.greaterEqual, rest)
  | '>' :: rest => some (.greater, rest)
  | '=' :: '>' :: rest => some (.equalGreater, rest)
  | '=' :: '=' :: rest => some (.equalEqual, rest)
  | '=' :: rest => some (.equal, rest)
  | _ => none

def digitsValue (digits : List Char) : Nat :=
  digits.foldl (fun value c => 10 * value + (c.toNat - '0'.toNat)) 0

def numberValue (whole fraction : List Char) : Float :=
  Decimal.ofDigits (digitsValue (whole ++ fraction)) fraction.length

inductive Piece where
  | gap
  | token (kind : Kind)
  | fault (fault : LexicalFault)
deriving Repr, Inhabited

/-- A stretch at the front of a text, and the text after it. -/
structure Munch where
  piece : Piece
  taken : List Char
  rest : List Char
deriving Repr, Inhabited

/-- A comment reaches to the end of its line. -/
def munchComment (c : Char) (after : List Char) : Munch :=
  ⟨.gap, c :: after.takeWhile (· != '\n'), after.dropWhile (· != '\n')⟩

/-- A string reaches to the next quote, over any number of lines. -/
def munchString (after : List Char) : Munch :=
  let contents := after.takeWhile (· != '"')
  match after.dropWhile (· != '"') with
  | [] => ⟨.fault .unterminated, '"' :: contents, []⟩
  | quote :: rest =>
    ⟨.token (.string (String.ofList contents)), '"' :: (contents ++ [quote]), rest⟩

/-- A number goes on with a point only if another digit follows it. -/
def munchFraction (whole rest : List Char) : Munch :=
  match rest with
  | '.' :: d :: more =>
    if d.isDigit then
      let fraction := (d :: more).takeWhile Char.isDigit
      ⟨.token (.number (numberValue whole fraction)), whole ++ '.' :: fraction,
        (d :: more).dropWhile Char.isDigit⟩
    else ⟨.token (.number (numberValue whole [])), whole, rest⟩
  | _ => ⟨.token (.number (numberValue whole [])), whole, rest⟩

def munchNumber (text : List Char) : Munch :=
  munchFraction (text.takeWhile Char.isDigit) (text.dropWhile Char.isDigit)

def wordKind (word : String) : Kind :=
  match Keyword.ofText? word with
  | some k => .keyword k
  | none => .identifier

def munchWord (text : List Char) : Munch :=
  let word := text.takeWhile isNamePart
  ⟨.token (wordKind (String.ofList word)), word, text.dropWhile isNamePart⟩

/-- What stands before the text `after` together with its first character `c`. -/
def munch (c : Char) (after : List Char) : Munch :=
  if isBlank c then ⟨.gap, [c], after⟩
  else if c = '"' then munchString after
  else if c.isDigit then munchNumber (c :: after)
  else if isNameStart c then munchWord (c :: after)
  else if c = '/' ∧ after.head? = some '/' then munchComment c after
  else match readSymbol? (c :: after) with
    | some (s, rest) => ⟨.token (.symbol s), s.text.toList, rest⟩
    | none => ⟨.fault (.unexpected c), [c], after⟩

theorem readSymbol?_append {text rest : List Char} {s : Symbol}
    (found : readSymbol? text = some (s, rest)) : s.text.toList ++ rest = text := by
  unfold readSymbol? at found
  split at found <;> simp only [Option.some.injEq, Prod.mk.injEq, reduceCtorEq] at found <;>
    (obtain ⟨rfl, rfl⟩ := found; rfl)

theorem munchString_append (after : List Char) :
    (munchString after).taken ++ (munchString after).rest = '"' :: after := by
  have whole := List.takeWhile_append_dropWhile (p := (· != '"')) (l := after)
  unfold munchString
  split
  · next none =>
    rw [none, List.append_nil] at whole
    simp [whole]
  · next quote rest found =>
    rw [found] at whole
    simp [whole]

theorem munchFraction_append (whole rest : List Char) :
    (munchFraction whole rest).taken ++ (munchFraction whole rest).rest = whole ++ rest := by
  unfold munchFraction
  split
  · split
    · simp only [List.append_assoc, List.cons_append, List.takeWhile_append_dropWhile]
    · rfl
  · rfl

theorem munch_append (c : Char) (after : List Char) :
    (munch c after).taken ++ (munch c after).rest = c :: after := by
  unfold munch
  split
  · rfl
  split
  · next quote =>
    rw [quote]
    exact munchString_append after
  split
  · rw [munchNumber, munchFraction_append]
    exact List.takeWhile_append_dropWhile
  split
  · exact List.takeWhile_append_dropWhile
  split
  · simp [munchComment]
  split
  · next found => exact readSymbol?_append found
  · rfl

theorem isNamePart_of_isNameStart {c : Char} (start : isNameStart c = true) :
    isNamePart c = true := by
  simp only [isNameStart, isNamePart, Char.isAlphanum, Bool.or_eq_true] at start ⊢
  rcases start with (letter | underscore) | wide
  · exact .inl (.inl (.inl (.inl letter)))
  · exact .inl (.inl (.inr underscore))
  · exact .inl (.inr wide)

theorem munch_taken_ne_nil (c : Char) (after : List Char) : (munch c after).taken ≠ [] := by
  unfold munch
  split
  · exact List.cons_ne_nil _ _
  split
  · unfold munchString
    split <;> exact List.cons_ne_nil _ _
  split
  · next digit =>
    have first : (c :: after).takeWhile Char.isDigit ≠ [] := by simp [digit]
    unfold munchNumber munchFraction
    split
    · split
      · simp
      · exact first
    · exact first
  split
  · next start => simp [munchWord, isNamePart_of_isNameStart start]
  split
  · exact List.cons_ne_nil _ _
  split
  · next s rest found =>
    cases s <;> exact List.cons_ne_nil _ _
  · exact List.cons_ne_nil _ _

/-- What reading yields: tokens and errors in the order of the text. -/
inductive Item where
  | token (token : Token)
  | error (error : LexicalError)
deriving Repr, Inhabited

/-- The item of a piece that covers the bytes from `start` up to `stop`. -/
def Piece.item? (piece : Piece) (taken : List Char) (start stop : Nat) : Option Item :=
  match piece with
  | .gap => none
  | .token kind => some (.token ⟨kind, String.ofList taken, stop⟩)
  | .fault found => some (.error ⟨found, ⟨start, max (stop - start) 1⟩⟩)

/-- Reads items, latest first, while the bound on the number of pieces lasts. -/
def scanFrom : Nat → List Item → Nat → List Char → List Item
  | bound + 1, items, start, c :: after =>
    let front := munch c after
    let stop := start + Text.byteLength front.taken
    match front.piece.item? front.taken start stop with
    | some item => scanFrom bound (item :: items) stop front.rest
    | none => scanFrom bound items stop front.rest
  | _, items, start, _ => (.token (atEnd start) :: items).reverse

/-- The items of a text whose first byte has the position `base`. A piece has at least one
character, so the number of characters bounds the number of pieces. -/
def scan (base : Nat) (source : List Char) : List Item :=
  scanFrom source.length [] base source

def Item.token? : Item → Option Token
  | .token t => some t
  | .error _ => none

def Item.error? : Item → Option LexicalError
  | .token _ => none
  | .error e => some e

end Token
end Lox
