import Lox.Text.Bytes

set_option autoImplicit false

/-! Tokens: punctuation and operator symbols, keywords, names and literals, each with the text it
was read from and the byte position just after it. -/

namespace Lox

inductive Symbol where
  | leftParen | rightParen | leftBrace | rightBrace
  | comma | dot | minus | plus | semicolon | colon | question
  | slash | star | starStar
  | bang | bangEqual | equal | equalEqual | equalGreater
  | greater | greaterEqual | less | lessEqual
deriving Repr, DecidableEq, Inhabited

inductive Keyword where
  | andWord | classWord | elseWord | falseWord | forWord | funWord | ifWord | nilWord | orWord
  | printWord | returnWord | superWord | switchWord | thisWord | trueWord | varWord | whileWord
deriving Repr, DecidableEq, Inhabited

namespace Symbol

def text : Symbol → String
  | leftParen => "(" | rightParen => ")" | leftBrace => "\x7b" | rightBrace => "\x7d"
  | comma => "," | dot => "." | minus => "-" | plus => "+" | semicolon => ";" | colon => ":"
  | question => "?" | slash => "/" | star => "*" | starStar => "**"
  | bang => "!" | bangEqual => "!=" | equal => "=" | equalEqual => "==" | equalGreater => "=>"
  | greater => ">" | greaterEqual => ">=" | less => "<" | lessEqual => "<="

def name : Symbol → String
  | leftParen => "LEFT_PAREN" | rightParen => "RIGHT_PAREN"
  | leftBrace => "LEFT_BRACE" | rightBrace => "RIGHT_BRACE"
  | comma => "COMMA" | dot => "DOT" | minus => "MINUS" | plus => "PLUS"
  | semicolon => "SEMICOLON" | colon => "COLON" | question => "QUESTION"
  | slash => "SLASH" | star => "STAR" | starStar => "STAR_STAR"
  | bang => "BANG" | bangEqual => "BANG_EQUAL" | equal => "EQUAL" | equalEqual => "EQUAL_EQUAL"
  | equalGreater => "EQUAL_GREATER" | greater => "GREATER" | greaterEqual => "GREATER_EQUAL"
  | less => "LESS" | lessEqual => "LESS_EQUAL"

end Symbol

namespace Keyword

def all : List Keyword :=
  [andWord, classWord, elseWord, falseWord, forWord, funWord, ifWord, nilWord, orWord,
   printWord, returnWord, superWord, switchWord, thisWord, trueWord, varWord, whileWord]

def text : Keyword → String
  | andWord => "and" | classWord => "class" | elseWord => "else" | falseWord => "false"
  | forWord => "for" | funWord => "fun" | ifWord => "if" | nilWord => "nil" | orWord => "or"
  | printWord => "print" | returnWord => "return" | superWord => "super"
  | switchWord => "switch" | thisWord => "this" | trueWord => "true" | varWord => "var"
  | whileWord => "while"

def name : Keyword → String
  | andWord => "AND" | classWord => "CLASS" | elseWord => "ELSE" | falseWord => "FALSE"
  | forWord => "FOR" | funWord => "FUN" | ifWord => "IF" | nilWord => "NIL" | orWord => "OR"
  | printWord => "PRINT" | returnWord => "RETURN" | superWord => "SUPER"
  | switchWord => "SWITCH" | thisWord => "THIS" | trueWord => "TRUE" | varWord => "VAR"
  | whileWord => "WHILE"

def ofText? (word : String) : Option Keyword :=
  all.find? (·.text == word)

end Keyword

namespace Token

/-- What a token is, with the value of a literal. -/
inductive Kind where
  | symbol (symbol : Symbol)
  | keyword (keyword : Keyword)
  | identifier
  | string (contents : String)
  | number (value : Float)
  | endOfInput
deriving Repr, BEq, Inhabited

def Kind.name : Kind → String
  | symbol s => s.name
  | keyword k => k.name
  | identifier => "IDENTIFIER"
  | string _ => "STRING"
  | number _ => "NUMBER"
  | endOfInput => "EOF"

end Token

/-- A token, the text it was read from, and the byte position just after that text. -/
structure Token where
  kind : Token.Kind
  lexeme : String
  offset : Nat
deriving Repr, Inhabited

structure Span where
  start : Nat
  length : Nat
deriving Repr, DecidableEq, Inhabited

/-- The bytes that a token covers, at least one. -/
def Token.span (token : Token) : Span :=
  ⟨token.offset - token.lexeme.utf8ByteSize, max token.lexeme.utf8ByteSize 1⟩

def Token.atEnd (offset : Nat) : Token :=
  ⟨.endOfInput, "", offset⟩

end Lox
