import Lox.Proofs.Derivation.Program
import Lox.Proofs.Grammar.Program

set_option autoImplicit false

/-! What is read is put together from parts that are read. A property of trees that is kept by the ways
in which the rules put trees together holds of everything that is read. The tokens that stand in a tree are
of the kinds that the rules ask for, and whatever is known of all tokens is known of them. -/

namespace Lox

/-- A symbol that stands between two operands. -/
def Symbol.isBinary : Symbol → Bool
  | .bangEqual | .equalEqual | .less | .lessEqual | .greater | .greaterEqual | .minus | .plus | .slash
  | .star | .starStar => true
  | _ => false

namespace Grammar

variable {α β : Type}

/-- A token of some kind of which something is known. -/
def Known (known : Token → Prop) (kind : Token.Kind) (token : Token) : Prop :=
  known token ∧ token.kind = kind

/-- All tokens that a cursor can still meet are known. -/
structure Cursor.Knows (known : Token → Prop) (cursor : Cursor) : Prop where
  pending : ∀ token ∈ cursor.pending, known token
  stop : known cursor.stop

namespace Cursor.Knows

variable {known : Token → Prop} {cursor : Cursor}

theorem all (every : ∀ token, known token) : cursor.Knows known :=
  ⟨fun token _ => every token, every _⟩

theorem next (knows : cursor.Knows known) : known cursor.next := by
  unfold Cursor.next
  cases tokens : cursor.pending with
  | nil => exact knows.stop
  | cons token rest => exact knows.pending token (tokens ▸ List.mem_cons_self)

theorem terminal?_next {terminal : Terminal}
    (found : cursor.pending.head?.bind Token.terminal? = some terminal) :
    cursor.next.terminal? = some terminal := by
  unfold Cursor.next
  cases tokens : cursor.pending with
  | nil =>
    rw [tokens] at found
    cases found
  | cons token rest =>
    rw [tokens] at found
    exact found

theorem tail (knows : cursor.Knows known) :
    Cursor.Knows known { cursor with pending := cursor.pending.tail } :=
  ⟨fun token member => knows.pending token (List.mem_of_mem_tail member), knows.stop⟩

theorem synchronize (knows : cursor.Knows known) : cursor.synchronize.Knows known := by
  unfold Cursor.synchronize
  cases tokens : cursor.pending with
  | nil => exact knows
  | cons first rest =>
    refine ⟨fun token member => knows.pending token ?_, knows.stop⟩
    rw [tokens]
    exact List.mem_cons_of_mem _ (mem_of_mem_resume first rest token member)

end Cursor.Knows

/-- From known tokens a rule reads what has some property, and it leaves known tokens. -/
def Yields (known : Token → Prop) (rule : Rule α) (good : α → Prop) : Prop :=
  ∀ cursor : Cursor, cursor.Knows known →
    match rule cursor with
    | .ok a after => after.Knows known ∧ good a
    | .error _ after => after.Knows known

/-- A rule that passes tokens and makes nothing of them that matters. -/
class Passing (rule : Rule α) : Prop where
  yields : ∀ known : Token → Prop, Yields known rule fun _ => True

namespace Yields

variable {known : Token → Prop} {rule : Rule α} {good : α → Prop}

theorem of_ok (yields : Yields known rule good) {cursor after : Cursor} {a : α} (knows : cursor.Knows known)
    (read : rule cursor = .ok a after) : good a := by
  have one := yields cursor knows
  rw [read] at one
  exact one.2

theorem pure {a : α} (isGood : good a) : Yields known (return a) good :=
  fun _ knows => ⟨knows, isGood⟩

theorem bind {next : β → Prop} {second : α → Rule β} (one : Yields known rule good)
    (two : ∀ a, good a → Yields known (second a) next) : Yields known (rule >>= second) next := by
  intro cursor knows
  have first := one cursor knows
  cases result : rule cursor with
  | ok a middle =>
    rw [result] at first
    rw [Outcome.bind_of_ok result]
    exact two a first.2 middle first.1
  | error failure middle =>
    rw [result] at first
    rw [Outcome.bind_of_error result]
    exact first

/-- What is read first makes no difference. -/
theorem after {next : β → Prop} {second : α → Rule β} [passing : Passing rule]
    (two : ∀ a, Yields known (second a) next) : Yields known (rule >>= second) next :=
  (passing.yields known).bind fun a _ => two a

theorem map {next : β → Prop} (one : Yields known rule good) (f : α → β)
    (improves : ∀ a, good a → next (f a)) : Yields known (f <$> rule) next := by
  rw [map_eq_pure_bind]
  exact one.bind fun a isGood => pure (improves a isGood)

theorem imp {better : α → Prop} (one : Yields known rule good) (improves : ∀ a, good a → better a) :
    Yields known rule better := by
  intro cursor knows
  have read := one cursor knows
  cases result : rule cursor with
  | ok a after =>
    rw [result] at read
    exact ⟨read.1, improves a read.2⟩
  | error failure after =>
    rw [result] at read
    exact read

theorem fail (fault : SyntaxFault) : Yields known (Rule.fail fault) good :=
  fun _ knows => knows

theorem failAt (fault : SyntaxFault) (token : Token) : Yields known (Rule.failAt fault token) good :=
  fun _ knows => knows

theorem peek : Yields known Rule.peek known :=
  fun _ knows => ⟨knows, knows.next⟩

instance peek_passing : Passing Rule.peek :=
  ⟨fun _ => peek.imp fun _ _ => trivial⟩

instance check_passing (terminal : Terminal) : Passing (Rule.check terminal) :=
  ⟨fun _ _ knows => ⟨knows, trivial⟩⟩

instance checkSecond_passing (terminal : Terminal) : Passing (Rule.checkSecond terminal) :=
  ⟨fun _ _ knows => ⟨knows, trivial⟩⟩

instance atEnd_passing : Passing Rule.atEnd :=
  ⟨fun _ _ knows => ⟨knows, trivial⟩⟩

instance advance_passing : Passing Rule.advance :=
  ⟨fun _ _ knows => ⟨knows.tail, trivial⟩⟩

instance fresh_passing : Passing Rule.fresh :=
  ⟨fun _ _ knows => ⟨⟨knows.pending, knows.stop⟩, trivial⟩⟩

instance accept_passing (terminal : Terminal) : Passing (Rule.accept terminal) := by
  refine ⟨fun known => .after fun found => ?_⟩
  split
  · exact .after fun _ => .pure trivial
  · exact .pure trivial

/-- The token that is asked for is known. -/
theorem expect (terminal : Terminal) (fault : SyntaxFault) :
    Yields known (Rule.expect terminal fault) fun token =>
      known token ∧ token.terminal? = some terminal := by
  intro cursor knows
  cases found : (cursor.pending.head?.bind Token.terminal? == some terminal) with
  | false =>
    have result : Rule.expect terminal fault cursor = .error (.error ⟨fault, cursor.next⟩) cursor := by
      rw [Rule.expect, Outcome.bind_of_ok (show Rule.check terminal cursor = .ok false cursor by
        rw [Rule.check, found])]
      rfl
    rw [result]
    exact knows
  | true =>
    have result : Rule.expect terminal fault cursor =
        .ok cursor.next { cursor with pending := cursor.pending.tail } := by
      rw [Rule.expect, Outcome.bind_of_ok (show Rule.check terminal cursor = .ok true cursor by
        rw [Rule.check, found])]
      rfl
    rw [result]
    exact ⟨knows.tail, knows.next, Cursor.Knows.terminal?_next (beq_iff_eq.mp found)⟩

theorem name (fault : SyntaxFault) : Yields known (Rule.expect .name fault) (Known known .identifier) :=
  (expect .name fault).imp fun _ read => ⟨read.1, Token.kind_of_name read.2⟩

instance expect_passing (terminal : Terminal) (fault : SyntaxFault) :
    Passing (Rule.expect terminal fault) :=
  ⟨fun _ => (expect terminal fault).imp fun _ _ => trivial⟩

/-- A token that was looked at before it is passed. -/
theorem checked {terminal other : Terminal} {explicit : Bool} {second : Token → Rule β} {third : Rule β}
    {next : β → Prop} (yes : ∀ token, known token → token.terminal? = some terminal →
      Yields known (second token) next) (no : Yields known third next) :
    Yields known (do
      if !explicit && (← Rule.check terminal) && (← Rule.checkSecond other) then
        let token ← Rule.peek
        second token
      else third) next := by
  intro cursor knows
  rw [Outcome.bind_of_ok (show Rule.check terminal cursor = .ok _ cursor from rfl),
    Outcome.bind_of_ok (show Rule.checkSecond other cursor = .ok _ cursor from rfl)]
  by_cases all : (!explicit && (cursor.pending.head?.bind Token.terminal? == some terminal) &&
      (cursor.pending.tail.head?.bind Token.terminal? == some other)) = true
  · rw [if_pos all, Outcome.bind_of_ok (show Rule.peek cursor = .ok _ cursor from rfl)]
    simp only [Bool.and_eq_true, beq_iff_eq] at all
    exact yes cursor.next knows.next (Cursor.Knows.terminal?_next all.1.2) cursor knows
  · rw [if_neg all]
    exact no cursor knows

/-- What the rounds of a repeated rule keep, and what the last of them yields. -/
def Kept {σ : Type} (invariant : σ → Prop) (good : α → Prop) : Rule.Round σ α → Prop
  | .again state => invariant state
  | .finish result => good result

theorem iterate {σ : Type} {round : σ → Rule (Rule.Round σ α)} {invariant : σ → Prop}
    (step : ∀ state, invariant state → Yields known (round state) (Kept invariant good)) (bound : Nat) :
    ∀ state, invariant state → Yields known (Rule.iterate round bound state) good := by
  induction bound with
  | zero => exact fun _ _ _ knows => knows
  | succ bound ih =>
    intro state holds cursor knows
    have first := step state holds cursor knows
    cases result : round state cursor with
    | error failure middle =>
      rw [result] at first
      rw [Rule.iterate_of_error result]
      exact first
    | ok outcome middle =>
      rw [result] at first
      cases outcome with
      | again further =>
        rw [Rule.iterate_of_again result]
        exact ih further first.2 middle first.1
      | finish last =>
        rw [Rule.iterate_of_finish result]
        exact first

theorem recover (one : Yields known rule good) :
    Yields known (Grammar.recover rule) fun found => ∀ a ∈ found, good a := by
  intro cursor knows
  have read := one cursor knows
  unfold Grammar.recover
  cases result : rule cursor with
  | ok a middle =>
    rw [result] at read
    refine ⟨read.1, fun b member => ?_⟩
    cases member
    exact read.2
  | error failure middle =>
    rw [result] at read
    cases failure with
    | exhausted => exact read
    | error e =>
      cases fatal : e.fault.isFatal with
      | true =>
        simp only [fatal, if_true]
        exact read
      | false =>
        simp only [fatal, Bool.false_eq_true, if_false]
        exact ⟨Cursor.Knows.synchronize ⟨read.pending, read.stop⟩, nofun⟩

end Yields

open Rules (hiddenName methodKind)

theorem Token.kind_of_keyword {token : Token} {k : Keyword}
    (found : token.terminal? = some (.keyword k)) : token.kind = .keyword k := by
  unfold Token.terminal? at found
  split at found <;> cases found
  assumption

/-- A property of trees that the rules keep: of expressions, of statements, of statements that can stand
alone as the body of a branch or loop, and of methods; together with what is known of tokens, those
included that are not in the source. -/
structure Assembly where
  token : Token → Prop
  expr : Expr → Prop
  stmt : Stmt → Prop
  bare : Stmt → Prop
  method : FunctionDecl → Prop
  ends (offset : Nat) : token (Token.atEnd offset)
  hidden (id : NodeId) (keyword : Token) : token (hiddenName id keyword)
  equals (offset : Nat) : token ⟨.symbol .equalEqual, "==", offset⟩
  nil : expr (.literal .nil)
  bool (value : Bool) : expr (.literal (.bool value))
  number {t : Token} {value : Float} : Known token (.number value) t → expr (.literal (.number value))
  string {t : Token} {value : String} : Known token (.string value) t → expr (.literal (.string value))
  unary {operator : Token} {right : Expr} :
    Known token (.symbol .bang) operator ∨ Known token (.symbol .minus) operator → expr right →
      expr (.unary operator right)
  binary {operator : Token} {s : Symbol} {left right : Expr} : Known token (.symbol s) operator →
    s.isBinary = true → expr left → expr right → expr (.binary left operator right)
  logical {operator : Token} {left right : Expr} :
    Known token (.keyword .andWord) operator ∨ Known token (.keyword .orWord) operator → expr left →
      expr right → expr (.logical left operator right)
  ternary {condition thenBranch elseBranch : Expr} : expr condition → expr thenBranch →
    expr elseBranch → expr (.ternary condition thenBranch elseBranch)
  grouping {inner : Expr} : expr inner → expr (.grouping inner)
  named (id : NodeId) {name : Token} : Known token .identifier name → expr (.variable id name)
  assign {id : NodeId} {name : Token} {value : Expr} : expr (.variable id name) → expr value →
    expr (.assign id name value)
  call {paren : Token} {callee : Expr} {arguments : List Expr} : Known token (.symbol .leftParen) paren →
    expr callee → (∀ e ∈ arguments, expr e) → expr (.call callee paren arguments)
  closure {params : List Param} {body : List Stmt} : (∀ p ∈ params, Known token .identifier p.name) →
    (∀ s ∈ body, stmt s) → expr (.function (.mk none .function params body))
  get {name : Token} {object : Expr} : Known token .identifier name → expr object →
    expr (.get object name)
  set {name : Token} {object value : Expr} : expr (.get object name) → expr value →
    expr (.set object name value)
  this (id : NodeId) {keyword : Token} : Known token (.keyword .thisWord) keyword →
    expr (.this id keyword)
  ofBare {s : Stmt} : bare s → stmt s
  expression {value : Expr} : expr value → bare (.expression value)
  print {value : Expr} : expr value → bare (.print value)
  ret {keyword : Token} {value : Option Expr} : Known token (.keyword .returnWord) keyword →
    (∀ e ∈ value, expr e) → bare (.ret keyword value)
  block {body : List Stmt} : (∀ s ∈ body, stmt s) → bare (.block body)
  inBlock {s : Stmt} : stmt s → bare s.scoped
  branch {condition : Expr} {thenBranch : Stmt} {elseBranch : Option Stmt} : expr condition →
    bare thenBranch → (∀ s ∈ elseBranch, bare s) → bare (.branch condition thenBranch elseBranch)
  loop {condition : Expr} {body : Stmt} : expr condition → bare body → bare (.loop condition body)
  var (id : NodeId) {name : Token} {initial : Option Expr} : Known token .identifier name →
    (∀ e ∈ initial, expr e) → stmt (.var id name initial)
  function (id : NodeId) {name : Token} {params : List Param} {body : List Stmt} :
    Known token .identifier name → (∀ p ∈ params, Known token .identifier p.name) →
      (∀ s ∈ body, stmt s) → stmt (.function id name (.mk (some name) .function params body))
  ofMethod {name : Token} {params : List Param} {body : List Stmt} : Known token .identifier name →
    (∀ p ∈ params, Known token .identifier p.name) → (∀ s ∈ body, stmt s) →
      method (.mk (some name) (methodKind name) params body)
  ofMembers (id : NodeId) {name : Token} (thisId : NodeId) {fields : List FieldDecl}
    {methods : List FunctionDecl} : Known token .identifier name →
    (∀ field ∈ fields, Known token .identifier field.name ∧ ∀ e ∈ field.initial, expr e) →
    (∀ decl ∈ methods, method decl) → stmt (.class id name thisId fields methods)

variable {a : Assembly}

/-- The rules that refer to each other yield trees with a property. -/
structure Rules.Assembles (a : Assembly) (rules : Rules) : Prop where
  expression : ∀ min, Yields a.token (rules.expression min) a.expr
  statement : Yields a.token rules.statement a.bare
  declaration : Yields a.token rules.declaration fun found => ∀ s ∈ found, a.stmt s

namespace Rules

variable {rules : Rules} (assembles : rules.Assembles a)
include assembles

/-! ### Functions -/

theorem blockRound_yields (found : List Stmt) (earlier : ∀ s ∈ found, a.stmt s) :
    Yields a.token (rules.blockRound found)
      (Yields.Kept (fun found => ∀ s ∈ found, a.stmt s) fun found => ∀ s ∈ found, a.stmt s) := by
  unfold blockRound
  refine .after fun closed => .after fun atEnd => ?_
  split
  · exact .pure fun s member => earlier s (List.mem_reverse.mp member)
  · refine assembles.declaration.bind fun next read => ?_
    cases next with
    | none => exact .pure earlier
    | some s => exact .pure (List.forall_mem_cons.mpr ⟨read s rfl, earlier⟩)

theorem block_yields : Yields a.token rules.block fun body => ∀ s ∈ body, a.stmt s := by
  unfold block
  exact (Yields.iterate (blockRound_yields assembles) rules.bound [] nofun).bind fun body read =>
    .after fun _ => .pure read

omit assembles in
theorem parameterRound_yields (found : List Param)
    (earlier : ∀ p ∈ found, Known a.token .identifier p.name) :
    Yields a.token (parameterRound found)
      (Yields.Kept (fun found => ∀ p ∈ found, Known a.token .identifier p.name)
        fun found => ∀ p ∈ found, Known a.token .identifier p.name) := by
  unfold parameterRound
  split
  · exact .fail _
  · refine (Yields.name _).bind fun name read => .after fun id => .after fun again => ?_
    have more : ∀ p ∈ (⟨id, name⟩ :: found : List Param), Known a.token .identifier p.name :=
      List.forall_mem_cons.mpr ⟨read, earlier⟩
    split
    · exact .pure more
    · exact .pure fun p member => more p (List.mem_reverse.mp member)

omit assembles in
theorem parameters_yields :
    Yields a.token rules.parameters fun found => ∀ p ∈ found, Known a.token .identifier p.name := by
  unfold parameters
  refine .after fun closed => ?_
  split
  · exact .pure nofun
  · exact Yields.iterate parameterRound_yields rules.bound [] nofun

/-- The body of a function is assembled; name and kind are those that were asked for. -/
theorem functionBody_yields (name : Option Token) (kind : FunctionKind) :
    Yields a.token (rules.functionBody name kind) fun decl =>
      ∃ params body, decl = .mk name kind params body ∧
        (∀ p ∈ params, Known a.token .identifier p.name) ∧ ∀ s ∈ body, a.stmt s := by
  unfold functionBody
  refine .after fun _ => parameters_yields.bind fun params names => .after fun _ => .after fun _ => ?_
  exact (block_yields assembles).bind fun body read => .pure ⟨params, body, rfl, names, read⟩

/-! ### Expressions -/

theorem argumentRound_yields (found : List Expr) (earlier : ∀ e ∈ found, a.expr e) :
    Yields a.token (rules.argumentRound found)
      (Yields.Kept (fun found => ∀ e ∈ found, a.expr e) fun found => ∀ e ∈ found, a.expr e) := by
  unfold argumentRound
  split
  · exact .fail _
  · refine (assembles.expression _).bind fun argument read => .after fun again => ?_
    have more := List.forall_mem_cons.mpr ⟨read, earlier⟩
    split
    · exact .pure more
    · exact .pure fun e member => more e (List.mem_reverse.mp member)

theorem arguments_yields : Yields a.token rules.arguments fun found => ∀ e ∈ found, a.expr e := by
  unfold arguments
  refine .after fun closed => ?_
  split
  · exact .pure nofun
  · exact Yields.iterate (argumentRound_yields assembles) rules.bound [] nofun

omit assembles in
theorem assignment_yields (equals : Token) {target value : Expr} (left : a.expr target)
    (right : a.expr value) : Yields a.token (assignment equals target value) a.expr := by
  unfold assignment
  split
  · exact .pure (a.assign left right)
  · exact .pure (a.set left right)
  · exact .failAt _ _

theorem operand_yields : Yields a.token rules.operand a.expr := by
  unfold operand
  refine Yields.peek.bind fun token known => ?_
  split
  · exact .after fun _ => (assembles.expression _).bind fun inner read => .after fun _ =>
      .pure (a.grouping read)
  · next bang =>
    exact .after fun _ => (assembles.expression _).bind fun right read =>
      .pure (a.unary (.inl ⟨known, bang⟩) read)
  · next minus =>
    exact .after fun _ => (assembles.expression _).bind fun right read =>
      .pure (a.unary (.inr ⟨known, minus⟩) read)
  · exact .after fun _ => .pure (a.bool false)
  · exact .after fun _ => .pure (a.bool true)
  · exact .after fun _ => .pure a.nil
  · next isNumber =>
    exact .after fun _ => .pure (a.number ⟨known, isNumber⟩)
  · next isString =>
    exact .after fun _ => .pure (a.string ⟨known, isString⟩)
  · refine .after fun _ => (functionBody_yields assembles _ _).bind fun decl read => ?_
    obtain ⟨params, body, rfl, names, inner⟩ := read
    exact .pure (a.closure names inner)
  · next isName =>
    exact .after fun _ => .after fun id => .pure (a.named id ⟨known, isName⟩)
  · next isThis =>
    exact .after fun _ => .after fun id => .pure (a.this id ⟨known, isThis⟩)
  · exact .failAt _ _

omit assembles in
/-- An operator that has a level and is none of those that are read in their own way is binary. -/
theorem binary_of_level {kind : Token.Kind} {level : Level} (binds : Level.ofKind? kind = some level)
    (notCall : kind ≠ .symbol .leftParen) (notDot : kind ≠ .symbol .dot)
    (notQuestion : kind ≠ .symbol .question) (notEqual : kind ≠ .symbol .equal)
    (notAnd : kind ≠ .keyword .andWord) (notOr : kind ≠ .keyword .orWord) :
    ∃ s : Symbol, kind = .symbol s ∧ s.isBinary = true := by
  cases kind with
  | symbol s => cases s <;> simp_all [Level.ofKind?, Level.ofSymbol?, Symbol.isBinary]
  | keyword k => cases k <;> simp_all [Level.ofKind?]
  | _ => cases binds

theorem extend_yields {left : Expr} (read : a.expr left) {operator : Token} (known : a.token operator)
    {level : Level} (binds : Level.ofKind? operator.kind = some level) :
    Yields a.token (rules.extend left operator level) a.expr := by
  unfold extend
  split
  · next paren =>
    exact (arguments_yields assembles).bind fun arguments more => .after fun _ =>
      .pure (a.call ⟨known, paren⟩ read more)
  · exact (Yields.name _).bind fun name named => .pure (a.get named read)
  · exact (assembles.expression _).bind fun one first => .after fun _ =>
      (assembles.expression _).bind fun two second => .pure (a.ternary read first second)
  · exact (assembles.expression _).bind fun value more => assignment_yields operator read more
  · next isAnd =>
    exact (assembles.expression _).bind fun right more =>
      .pure (a.logical (.inl ⟨known, isAnd⟩) read more)
  · next isOr =>
    exact (assembles.expression _).bind fun right more =>
      .pure (a.logical (.inr ⟨known, isOr⟩) read more)
  · next notCall notDot notQuestion notEqual notAnd notOr =>
    obtain ⟨s, kind, binary⟩ :=
      binary_of_level binds notCall notDot notQuestion notEqual notAnd notOr
    exact (assembles.expression _).bind fun right more => .pure (a.binary ⟨known, kind⟩ binary read more)

theorem operatorRound_yields (min : Level) (left : Expr) (read : a.expr left) :
    Yields a.token (rules.operatorRound min left) (Yields.Kept a.expr a.expr) := by
  unfold operatorRound
  refine Yields.peek.bind fun operator known => ?_
  split
  · exact .pure read
  · next level binds =>
    split
    · exact .pure read
    · exact .after fun _ => (extend_yields assembles read known binds).bind fun e more => .pure more

theorem expressionAt_yields (min : Level) : Yields a.token (rules.expressionAt min) a.expr := by
  unfold expressionAt
  exact (operand_yields assembles).bind fun left read =>
    Yields.iterate (operatorRound_yields assembles min) rules.bound left read

/-! ### Statements -/

theorem expressionStatement_yields : Yields a.token rules.expressionStatement a.bare := by
  unfold expressionStatement
  exact (assembles.expression _).bind fun value read => .after fun _ => .pure (a.expression read)

theorem printStatement_yields : Yields a.token rules.printStatement a.bare := by
  unfold printStatement
  exact (assembles.expression _).bind fun value read => .after fun _ => .pure (a.print read)

/-- An expression that is there, if it is asked for. -/
theorem some_yields (min : Level) :
    Yields a.token (some <$> rules.expression min) fun value => ∀ e ∈ value, a.expr e :=
  (assembles.expression min).map some fun _ read _ same => Option.some.inj same ▸ read

theorem returnStatement_yields {keyword : Token}
    (known : Known a.token (.keyword .returnWord) keyword) :
    Yields a.token (rules.returnStatement keyword) a.bare := by
  have rest (value : Option Expr) (read : ∀ e ∈ value, a.expr e) : Yields a.token (do
      let _ ← Rule.expect (.symbol .semicolon) .returnEnd
      return Stmt.ret keyword value) a.bare :=
    .after fun _ => .pure (a.ret known read)
  unfold returnStatement
  refine .after fun missing => ?_
  dsimp only
  split
  · exact rest none nofun
  · exact (some_yields assembles _).bind rest

theorem whileStatement_yields : Yields a.token rules.whileStatement a.bare := by
  unfold whileStatement
  refine .after fun _ => (assembles.expression _).bind fun condition test => .after fun _ => ?_
  refine assembles.statement.bind fun body read => .pure ?_
  exact a.loop test (a.inBlock (a.ofBare read))

theorem ifStatement_yields : Yields a.token rules.ifStatement a.bare := by
  unfold ifStatement
  refine .after fun _ => (assembles.expression _).bind fun condition test => .after fun _ => ?_
  refine assembles.statement.bind fun thenBranch chosen => .after fun more => ?_
  have one := a.inBlock (a.ofBare chosen)
  split
  · refine assembles.statement.bind fun elseBranch other => .pure ?_
    refine a.branch test one fun s same => ?_
    rw [← Option.some.inj same]
    exact a.inBlock (a.ofBare other)
  · exact .pure (a.branch test one nofun)

theorem initializer_yields : Yields a.token rules.initializer fun value => ∀ e ∈ value, a.expr e := by
  unfold initializer
  refine .after fun given => ?_
  split
  · exact some_yields assembles _
  · exact .pure nofun

theorem varDeclaration_yields : Yields a.token rules.varDeclaration a.stmt := by
  unfold varDeclaration
  refine (Yields.name _).bind fun name named => .after fun id => ?_
  exact (initializer_yields assembles).bind fun initial read => .after fun _ =>
    .pure (a.var id named read)

theorem forInitializer_yields : Yields a.token rules.forInitializer fun found => ∀ s ∈ found, a.stmt s := by
  unfold forInitializer
  refine .after fun missing => ?_
  split
  · exact .pure nofun
  · refine .after fun declared => ?_
    split
    · exact (varDeclaration_yields assembles).map some fun s read _ same =>
        Option.some.inj same ▸ read
    · exact (expressionStatement_yields assembles).map some fun s read _ same =>
        Option.some.inj same ▸ a.ofBare read

omit assembles in
theorem forLoop_bare {first : Option Stmt} {condition : Expr} {last : Option Expr} {body : Stmt}
    (start : ∀ s ∈ first, a.stmt s) (test : a.expr condition) (step : ∀ e ∈ last, a.expr e)
    (inner : a.bare body) : a.bare (forLoop first condition last body) := by
  have pair {one two : Stmt} (first : a.stmt one) (second : a.stmt two) : a.bare (.block [one, two]) :=
    a.block (List.forall_mem_cons.mpr ⟨first, List.forall_mem_singleton.mpr second⟩)
  have round : a.bare (forBody last body) := by
    cases last with
    | none => exact a.inBlock (a.ofBare inner)
    | some e => exact pair (a.ofBare inner) (a.ofBare (a.expression (step e rfl)))
  cases first with
  | none => exact a.loop test round
  | some s => exact pair (start s rfl) (a.ofBare (a.loop test round))

theorem forStatement_yields : Yields a.token rules.forStatement a.bare := by
  unfold forStatement
  refine .after fun _ => (forInitializer_yields assembles).bind fun first start => ?_
  have final (condition : Expr) (test : a.expr condition) (last : Option Expr)
      (step : ∀ e ∈ last, a.expr e) : Yields a.token (do
        let _ ← Rule.expect (.symbol .rightParen) .forClose
        return forLoop first condition last (← rules.statement)) a.bare :=
    .after fun _ => assembles.statement.bind fun body inner => .pure (forLoop_bare start test step inner)
  have rest (condition : Expr) (test : a.expr condition) : Yields a.token (do
      let _ ← Rule.expect (.symbol .semicolon) .loopConditionEnd
      let last ← do
        if ← Rule.check (.symbol .rightParen) then pure none
        else some <$> rules.expression .lowest
      let _ ← Rule.expect (.symbol .rightParen) .forClose
      return forLoop first condition last (← rules.statement)) a.bare := by
    refine .after fun _ => .after fun closed => ?_
    dsimp only
    split
    · exact final condition test none nofun
    · exact (some_yields assembles _).bind (final condition test)
  refine .after fun missing => ?_
  dsimp only
  split
  · exact rest _ (a.bool true)
  · exact (assembles.expression _).bind rest

/-- The arms of a switch that have been read so far. -/
structure AssembledArms (a : Assembly) (arms : List (Expr × Stmt)) (default : Option Stmt) : Prop where
  arms : ∀ arm ∈ arms, a.expr arm.1 ∧ a.bare arm.2
  default : ∀ s ∈ default, a.bare s

theorem armRound_yields (found : Arms) (earlier : AssembledArms a found.arms found.default) :
    Yields a.token (rules.armRound found)
      (Yields.Kept (fun found => AssembledArms a found.arms found.default)
        fun found => AssembledArms a found.arms found.default) := by
  unfold armRound
  refine .after fun closed => .after fun atEnd => ?_
  split
  · exact .pure earlier
  · refine .after fun start => (assembles.expression _).bind fun pattern test => .after fun _ => ?_
    refine assembles.statement.bind fun action chosen => ?_
    split
    · split
      · exact .failAt _ _
      · exact .pure ⟨earlier.arms, fun s same => Option.some.inj same ▸ chosen⟩
    · exact .pure ⟨List.forall_mem_cons.mpr ⟨⟨test, chosen⟩, earlier.arms⟩, earlier.default⟩

omit assembles in
theorem armChain_yields {hidden : Token} (known : Known a.token .identifier hidden) (keyword : Token) :
    ∀ (arms : List (Expr × Stmt)) (chain : Option Stmt), AssembledArms a arms chain →
      Yields a.token (armChain hidden keyword arms chain) fun chain => ∀ s ∈ chain, a.bare s
  | [], chain, earlier => .pure earlier.default
  | (pattern, action) :: rest, chain, earlier => by
    unfold armChain
    obtain ⟨⟨test, chosen⟩, others⟩ := List.forall_mem_cons.mp earlier.arms
    refine .after fun id => armChain_yields known keyword rest _ ⟨others, fun s same => ?_⟩
    rw [← Option.some.inj same]
    exact a.branch (a.binary ⟨a.equals _, rfl⟩ rfl (a.named id known) test) chosen earlier.default

theorem switchStatement_yields (keyword : Token) :
    Yields a.token (rules.switchStatement keyword) a.bare := by
  unfold switchStatement
  refine .after fun _ => (assembles.expression _).bind fun subject value => .after fun _ => ?_
  refine .after fun id => .after fun _ => ?_
  refine (Yields.iterate (armRound_yields assembles) rules.bound ⟨[], none⟩
    ⟨List.forall_mem_nil _, nofun⟩).bind fun found read => ?_
  have known : Known a.token .identifier (hiddenName id keyword) := ⟨a.hidden id keyword, rfl⟩
  refine .after fun _ => (armChain_yields known _ _ _ read).bind fun chain chosen => .pure ?_
  refine a.block (List.forall_mem_cons.mpr ⟨a.var id known fun e same => ?_, fun s member => ?_⟩)
  · exact Option.some.inj same ▸ value
  · exact a.ofBare (chosen s (Option.mem_toList.mp member))

theorem statementRule_yields : Yields a.token rules.statementRule a.bare := by
  unfold statementRule
  refine Yields.peek.bind fun token known => ?_
  split
  · exact .after fun _ => forStatement_yields assembles
  · exact .after fun _ => ifStatement_yields assembles
  · exact .after fun _ => (block_yields assembles).map _ fun body read => a.block read
  · exact .after fun _ => switchStatement_yields assembles token
  · exact .after fun _ => printStatement_yields assembles
  · next isReturn =>
    exact .after fun _ => returnStatement_yields assembles ⟨known, Token.kind_of_keyword isReturn⟩
  · exact .after fun _ => whileStatement_yields assembles
  · exact expressionStatement_yields assembles

/-! ### Declarations -/

/-- The members of a class that have been read so far. -/
structure AssembledMembers (a : Assembly) (found : Members) : Prop where
  fields : ∀ field ∈ found.fields,
    Known a.token .identifier field.name ∧ ∀ e ∈ field.initial, a.expr e
  methods : ∀ decl ∈ found.methods, a.method decl

theorem field_yields (explicit : Bool) :
    Yields a.token (rules.field explicit) fun field =>
      Known a.token .identifier field.name ∧ ∀ e ∈ field.initial, a.expr e := by
  unfold field
  exact (Yields.name _).bind fun name named => (initializer_yields assembles).bind fun initial read =>
    .after fun _ => .pure ⟨named, read⟩

theorem memberRound_yields (found : Members) (earlier : AssembledMembers a found) :
    Yields a.token (rules.memberRound found) (Yields.Kept (AssembledMembers a) (AssembledMembers a)) := by
  unfold memberRound
  refine .after fun closed => .after fun atEnd => ?_
  split
  · exact .pure earlier
  · refine .after fun explicit => Yields.checked (fun name known isName => .after fun _ => ?_) ?_
    · have named : Known a.token .identifier name := ⟨known, Token.kind_of_name isName⟩
      refine (functionBody_yields assembles _ _).bind fun method read => .pure ?_
      obtain ⟨params, body, rfl, names, inner⟩ := read
      exact ⟨earlier.fields, List.forall_mem_cons.mpr ⟨a.ofMethod named names inner, earlier.methods⟩⟩
    · refine (field_yields assembles explicit).bind fun field read => .pure ?_
      exact ⟨List.forall_mem_cons.mpr ⟨read, earlier.fields⟩, earlier.methods⟩

theorem classDeclaration_yields : Yields a.token rules.classDeclaration a.stmt := by
  unfold classDeclaration
  refine (Yields.name _).bind fun name named => .after fun id => .after fun thisId => .after fun _ => ?_
  refine (Yields.iterate (memberRound_yields assembles) rules.bound ⟨[], []⟩
    ⟨nofun, nofun⟩).bind fun found read => .after fun _ => .pure ?_
  exact a.ofMembers id thisId named (fun field member => read.fields field (List.mem_reverse.mp member))
    fun decl member => read.methods decl (List.mem_reverse.mp member)

theorem declarationRule_yields : Yields a.token rules.declarationRule fun found => ∀ s ∈ found, a.stmt s := by
  refine Yields.recover ?_
  unfold declarationOrStatement
  refine .after fun isVar => ?_
  split
  · exact varDeclaration_yields assembles
  refine .after fun isClass => ?_
  split
  · exact classDeclaration_yields assembles
  refine .after fun isFun => .after fun isNamed => ?_
  split
  · refine .after fun _ => ?_
    unfold functionDeclaration
    refine (Yields.name _).bind fun name named => .after fun id => ?_
    refine (functionBody_yields assembles _ _).bind fun decl read => ?_
    obtain ⟨params, body, rfl, names, inner⟩ := read
    exact .pure (a.function id named names inner)
  · exact assembles.statement.imp fun _ read => a.ofBare read

end Rules

theorem rulesAt_assembles (a : Assembly) (depth : Nat) : (rulesAt depth).Assembles a := by
  induction depth with
  | zero => exact ⟨fun _ _ knows => knows, fun _ knows => knows, fun _ knows => knows⟩
  | succ depth ih =>
    exact ⟨fun min => Rules.expressionAt_yields ih min, Rules.statementRule_yields ih,
      Rules.declarationRule_yields ih⟩

theorem programRound_yields (a : Assembly) (depth : Nat) (found : List Stmt)
    (earlier : ∀ s ∈ found, a.stmt s) :
    Yields a.token (programRound depth found)
      (Yields.Kept (fun found => ∀ s ∈ found, a.stmt s) fun found => ∀ s ∈ found, a.stmt s) := by
  unfold programRound
  refine .after fun atEnd => ?_
  split
  · exact .pure fun s member => earlier s (List.mem_reverse.mp member)
  · refine (rulesAt_assembles a depth).declaration.bind fun next read => ?_
    cases next with
    | none => exact .pure earlier
    | some s => exact .pure (List.forall_mem_cons.mpr ⟨read s rfl, earlier⟩)

theorem program_yields (a : Assembly) : Yields a.token program fun found => ∀ s ∈ found, a.stmt s :=
  fun cursor => Yields.iterate (programRound_yields a cursor.depth) cursor.depth [] nofun cursor

theorem Cursor.knows_ofTokens (a : Assembly) {tokens : List Token} (known : ∀ t ∈ tokens, a.token t)
    (firstId : NodeId) : (Cursor.ofTokens tokens firstId).Knows a.token := by
  constructor
  · exact fun t member => known t ((List.takeWhile_sublist _).mem member)
  · unfold Cursor.ofTokens
    cases found : tokens.find? (·.isEnd) with
    | none => exact a.ends _
    | some t => exact known t (List.mem_of_find?_eq_some found)

/-- What is read from known tokens has every property that the rules keep. -/
theorem parse_assembled (a : Assembly) {tokens : List Token} (known : ∀ t ∈ tokens, a.token t)
    (firstId : NodeId) : ∀ s ∈ (parse tokens firstId).statements, a.stmt s := by
  have read := program_yields a _ (Cursor.knows_ofTokens a known firstId)
  unfold parse Cursor.parse
  cases result : program (Cursor.ofTokens tokens firstId) with
  | ok statements after =>
    rw [result] at read
    exact read.2
  | error failure after => cases failure <;> exact nofun

end Grammar
end Lox
