import Lox.Grammar.Program

set_option autoImplicit false

/-! The grammar of programs, as derivations. A derivation leads from one place in a row of tokens to a
later one and has an image, the syntax that stands for what lies between. Only expressions are not
derived: what is an expression at a place is what reading one there accepts without an error.

    program        → declaration* EOF
    declaration    → classDecl | funDecl | varDecl | statement
    classDecl      → "class" IDENT "{" member* "}"
    member         → IDENT function | "var"? IDENT ( "=" expression )? ";"
    funDecl        → "fun" IDENT function
    function       → "(" parameters? ")" block
    varDecl        → "var" IDENT ( "=" expression )? ";"
    statement      → exprStmt | printStmt | whileStmt | forStmt | switchStmt
                   | ifStmt | block | returnStmt
    switchStmt     → "switch" "(" expression ")" "{" ( expression "=>" statement )* "}"
    forStmt        → "for" "(" ( varDecl | exprStmt | ";" ) expression? ";" expression? ")" statement
    block          → "{" declaration* "}"
-/

namespace Lox.Grammar

/-- The tokens that are still to be read, and the number of the next node. -/
structure Place where
  tokens : List Token
  nextId : NodeId

def Place.cursor (stop : Token) (place : Place) : Cursor :=
  ⟨place.tokens, stop, place.nextId, []⟩

/-- The next token is a terminal. -/
def Place.Sees (place : Place) (terminal : Terminal) : Prop :=
  place.tokens.head?.bind Token.terminal? = some terminal

namespace Derives

/-- One token that is asked for by name. -/
def Passes (terminal : Terminal) (start : Place) (token : Token) (last : Place) : Prop :=
  token.terminal? = some terminal ∧ start = ⟨token :: last.tokens, last.nextId⟩

/-- A node that gets the next number. -/
def Numbers (start : Place) (id : NodeId) (last : Place) : Prop :=
  id = start.nextId ∧ last = ⟨start.tokens, start.nextId + 1⟩

/-- An expression that reading accepts, with no error recorded in it. -/
def Expression (stop : Token) (start : Place) (e : Expr) (last : Place) : Prop :=
  parseExpression .lowest (start.cursor stop) = .ok e (last.cursor stop)

inductive Optionally {α : Type} (rule : Place → α → Place → Prop) :
    Place → Option α → Place → Prop
  | absent (p : Place) : Optionally rule p none p
  | present {p q : Place} {a : α} (found : rule p a q) : Optionally rule p (some a) q

/-- `( "=" expression )?` -/
inductive Initializer (stop : Token) : Place → Option Expr → Place → Prop
  | absent (p : Place) : Initializer stop p none p
  | present {p q r : Place} {equals : Token} {value : Expr}
      (equal : Passes (.symbol .equal) p equals q) (initial : Expression stop q value r) :
      Initializer stop p (some value) r

/-- `IDENT ( "," IDENT )*` -/
inductive Names : Place → List Param → Place → Prop
  | last {p q r : Place} {name : Token} {id : NodeId} (named : Passes .name p name q)
      (node : Numbers q id r) : Names p [⟨id, name⟩] r
  | more {p q r s t : Place} {name comma : Token} {id : NodeId} {params : List Param}
      (named : Passes .name p name q) (node : Numbers q id r)
      (separator : Passes (.symbol .comma) r comma s) (rest : Names s params t) :
      Names p (⟨id, name⟩ :: params) t

/-- `parameters?`, of which there are at most 255. -/
inductive Parameters : Place → List Param → Place → Prop
  | absent (p : Place) : Parameters p [] p
  | present {p q : Place} {params : List Param} (names : Names p params q)
      (few : params.length ≤ 255) : Parameters p params q

/-- `varDecl` -/
inductive VarDeclaration (stop : Token) : Place → Stmt → Place → Prop
  | mk {p q r s t u : Place} {keyword name semicolon : Token} {id : NodeId}
      {initial : Option Expr} (opens : Passes (.keyword .varWord) p keyword q)
      (named : Passes .name q name r) (node : Numbers r id s)
      (value : Initializer stop s initial t) (ends : Passes (.symbol .semicolon) t semicolon u) :
      VarDeclaration stop p (.var id name initial) u

/-- `exprStmt` -/
inductive ExpressionStatement (stop : Token) : Place → Stmt → Place → Prop
  | mk {p q r : Place} {value : Expr} {semicolon : Token} (read : Expression stop p value q)
      (ends : Passes (.symbol .semicolon) q semicolon r) :
      ExpressionStatement stop p (.expression value) r

/-- `varDecl | exprStmt | ";"` -/
inductive LoopStart (stop : Token) : Place → Option Stmt → Place → Prop
  | absent {p q : Place} {semicolon : Token} (ends : Passes (.symbol .semicolon) p semicolon q) :
      LoopStart stop p none q
  | var {p q : Place} {s : Stmt} (declared : VarDeclaration stop p s q) :
      LoopStart stop p (some s) q
  | value {p q : Place} {s : Stmt} (read : ExpressionStatement stop p s q) :
      LoopStart stop p (some s) q

/-- A loop with clauses, `{ first; while (condition) { body; step; } }`. A condition that is missing is
true; without a step the body is the body of the loop. -/
def loopImage (first : Option Stmt) (condition step : Option Expr) (body : Stmt) : Stmt :=
  let repeated : Stmt := match step with
    | some step => .block [body, .expression step]
    | none => body.scoped
  let loop : Stmt := .loop (condition.getD (.literal (.bool true))) repeated
  match first with
  | some first => .block [first, loop]
  | none => loop

/-- The arms of a switch compared one after the other, with the default arm last. The comparisons are
numbered from the last arm to the first. -/
def armsImage (subject : NodeId) (keyword : Token) (firstId : NodeId) :
    List (Expr × Stmt) → Option Stmt → Option Stmt
  | [], default => default
  | (pattern, action) :: rest, default =>
    let hidden : Token := ⟨.identifier, "switch#" ++ toString subject, keyword.offset⟩
    let equals : Token := ⟨.symbol .equalEqual, "==", keyword.offset⟩
    some (.branch (.binary (.variable (firstId + rest.length) hidden) equals pattern) action
      (armsImage subject keyword firstId rest default))

/-- A switch holds its subject in a hidden variable. -/
def switchImage (subjectId : NodeId) (keyword : Token) (subject : Expr) (firstId : NodeId)
    (arms : List (Expr × Stmt)) (default : Option Stmt) : Stmt :=
  let hidden : Token := ⟨.identifier, "switch#" ++ toString subjectId, keyword.offset⟩
  .block (.var subjectId hidden (some subject) ::
    (armsImage subjectId keyword firstId arms default).toList)

/-- The name `_`, alone. -/
def IsDefault (pattern : Expr) : Prop :=
  ∃ id name, pattern = .variable id name ∧ name.lexeme = "_"

mutual

inductive Statement (stop : Token) : Place → Stmt → Place → Prop
  | expression {p q : Place} {s : Stmt} (read : ExpressionStatement stop p s q) :
      Statement stop p s q
  | print {p q r s : Place} {keyword semicolon : Token} {value : Expr}
      (opens : Passes (.keyword .printWord) p keyword q) (read : Expression stop q value r)
      (ends : Passes (.symbol .semicolon) r semicolon s) : Statement stop p (.print value) s
  | whileLoop {p q r s t u : Place} {keyword left right : Token} {condition : Expr} {body : Stmt}
      (opens : Passes (.keyword .whileWord) p keyword q)
      (leftParen : Passes (.symbol .leftParen) q left r) (test : Expression stop r condition s)
      (rightParen : Passes (.symbol .rightParen) s right t) (repeated : Statement stop t body u) :
      Statement stop p (.loop condition body.scoped) u
  | forLoop {p q r s t u v w x : Place} {keyword left semicolon right : Token} {first : Option Stmt}
      {condition step : Option Expr} {body : Stmt}
      (opens : Passes (.keyword .forWord) p keyword q)
      (leftParen : Passes (.symbol .leftParen) q left r) (start : LoopStart stop r first s)
      (test : Optionally (Expression stop) s condition t)
      (middle : Passes (.symbol .semicolon) t semicolon u)
      (advance : Optionally (Expression stop) u step v)
      (rightParen : Passes (.symbol .rightParen) v right w) (repeated : Statement stop w body x) :
      Statement stop p (loopImage first condition step body) x
  | switch {p q r s t u v w x : Place} {keyword left right leftBrace rightBrace : Token}
      {id : NodeId} {subject : Expr} {arms : List (Expr × Stmt)} {default : Option Stmt}
      (opens : Passes (.keyword .switchWord) p keyword q)
      (leftParen : Passes (.symbol .leftParen) q left r) (value : Expression stop r subject s)
      (rightParen : Passes (.symbol .rightParen) s right t) (node : Numbers t id u)
      (begins : Passes (.symbol .leftBrace) u leftBrace v) (choices : Arms stop v arms default w)
      (ends : Passes (.symbol .rightBrace) w rightBrace x) :
      Statement stop p (switchImage id keyword subject x.nextId arms default)
        ⟨x.tokens, x.nextId + arms.length⟩
  | ifThen {p q r s t u : Place} {keyword left right : Token} {condition : Expr} {thenBranch : Stmt}
      (opens : Passes (.keyword .ifWord) p keyword q)
      (leftParen : Passes (.symbol .leftParen) q left r) (test : Expression stop r condition s)
      (rightParen : Passes (.symbol .rightParen) s right t) (chosen : Statement stop t thenBranch u)
      (complete : ¬u.Sees (.keyword .elseWord)) :
      Statement stop p (.branch condition thenBranch.scoped none) u
  | ifElse {p q r s t u v w : Place} {keyword left right otherwise : Token} {condition : Expr}
      {thenBranch elseBranch : Stmt} (opens : Passes (.keyword .ifWord) p keyword q)
      (leftParen : Passes (.symbol .leftParen) q left r) (test : Expression stop r condition s)
      (rightParen : Passes (.symbol .rightParen) s right t) (chosen : Statement stop t thenBranch u)
      (separator : Passes (.keyword .elseWord) u otherwise v)
      (other : Statement stop v elseBranch w) :
      Statement stop p (.branch condition thenBranch.scoped (some elseBranch.scoped)) w
  | block {p q : Place} {body : List Stmt} (inner : Block stop p body q) :
      Statement stop p (.block body) q
  | ret {p q r s : Place} {keyword semicolon : Token} {value : Option Expr}
      (opens : Passes (.keyword .returnWord) p keyword q)
      (read : Optionally (Expression stop) q value r)
      (ends : Passes (.symbol .semicolon) r semicolon s) : Statement stop p (.ret keyword value) s

inductive Block (stop : Token) : Place → List Stmt → Place → Prop
  | mk {p q r s : Place} {left right : Token} {body : List Stmt}
      (opens : Passes (.symbol .leftBrace) p left q) (inner : Declarations stop q body r)
      (ends : Passes (.symbol .rightBrace) r right s) : Block stop p body s

inductive Function (stop : Token) :
    Option Token → FunctionKind → Place → FunctionDecl → Place → Prop
  | mk {name : Option Token} {kind : FunctionKind} {p q r s t : Place} {left right : Token}
      {params : List Param} {body : List Stmt} (leftParen : Passes (.symbol .leftParen) p left q)
      (parameters : Parameters q params r) (rightParen : Passes (.symbol .rightParen) r right s)
      (inner : Block stop s body t) : Function stop name kind p (.mk name kind params body) t

/-- `( expression "=>" statement )*`, with at most one arm whose pattern is `_`. -/
inductive Arms (stop : Token) : Place → List (Expr × Stmt) → Option Stmt → Place → Prop
  | nil (p : Place) : Arms stop p [] none p
  | arm {p q r s t : Place} {pattern : Expr} {arrow : Token} {action : Stmt}
      {arms : List (Expr × Stmt)} {default : Option Stmt} (read : Expression stop p pattern q)
      (ordinary : ¬IsDefault pattern) (separator : Passes (.symbol .equalGreater) q arrow r)
      (chosen : Statement stop r action s) (rest : Arms stop s arms default t) :
      Arms stop p ((pattern, action) :: arms) default t
  | default {p q r s t : Place} {pattern : Expr} {arrow : Token} {action : Stmt}
      {arms : List (Expr × Stmt)} (read : Expression stop p pattern q)
      (isDefault : IsDefault pattern) (separator : Passes (.symbol .equalGreater) q arrow r)
      (chosen : Statement stop r action s) (rest : Arms stop s arms none t) :
      Arms stop p arms (some action) t

/-- `member*`, with the fields and the methods apart. -/
inductive Members (stop : Token) : Place → List FieldDecl → List FunctionDecl → Place → Prop
  | nil (p : Place) : Members stop p [] [] p
  | method {p q r s : Place} {name : Token} {decl : FunctionDecl} {fields : List FieldDecl}
      {methods : List FunctionDecl} (named : Passes .name p name q)
      (function : Function stop (some name)
        (if name.lexeme = "init" then .initializer else .method) q decl r)
      (rest : Members stop r fields methods s) : Members stop p fields (decl :: methods) s
  | field {p q r s t u : Place} {keyword : Option Token} {name semicolon : Token}
      {initial : Option Expr} {fields : List FieldDecl} {methods : List FunctionDecl}
      (explicit : Optionally (Passes (.keyword .varWord)) p keyword q)
      (named : Passes .name q name r) (value : Initializer stop r initial s)
      (ends : Passes (.symbol .semicolon) s semicolon t)
      (rest : Members stop t fields methods u) :
      Members stop p (.mk name initial :: fields) methods u

inductive Declaration (stop : Token) : Place → Stmt → Place → Prop
  | classDecl {p q r s t u v w : Place} {keyword name left right : Token} {id thisId : NodeId}
      {fields : List FieldDecl} {methods : List FunctionDecl}
      (opens : Passes (.keyword .classWord) p keyword q) (named : Passes .name q name r)
      (node : Numbers r id s) (receiver : Numbers s thisId t)
      (begins : Passes (.symbol .leftBrace) t left u)
      (members : Members stop u fields methods v)
      (ends : Passes (.symbol .rightBrace) v right w) :
      Declaration stop p (.class id name thisId fields methods) w
  | function {p q r s t : Place} {keyword name : Token} {id : NodeId} {decl : FunctionDecl}
      (opens : Passes (.keyword .funWord) p keyword q) (named : Passes .name q name r)
      (node : Numbers r id s) (function : Function stop (some name) .function s decl t) :
      Declaration stop p (.function id name decl) t
  | var {p q : Place} {s : Stmt} (declared : VarDeclaration stop p s q) :
      Declaration stop p s q
  | statement {p q : Place} {s : Stmt} (stated : Statement stop p s q) : Declaration stop p s q

inductive Declarations (stop : Token) : Place → List Stmt → Place → Prop
  | nil (p : Place) : Declarations stop p [] p
  | cons {p q r : Place} {s : Stmt} {rest : List Stmt} (first : Declaration stop p s q)
      (further : Declarations stop q rest r) : Declarations stop p (s :: rest) r

end

/-- A whole program: declarations up to the end of the input. -/
def Program (stop : Token) (tokens : List Token) (firstId : NodeId) (statements : List Stmt)
    (nextId : NodeId) : Prop :=
  Declarations stop ⟨tokens, firstId⟩ statements ⟨[], nextId⟩

end Derives
end Lox.Grammar
