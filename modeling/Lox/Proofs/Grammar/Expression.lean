import Lox.Grammar.Program
import Lox.Proofs.Grammar.Promise
import Lox.Proofs.Syntax.Regular

set_option autoImplicit false

/-! What is read from properly spelled tokens is regular, and from any tokens its nodes have numbers of
their own. Each rule keeps this promise if the rules it refers to do, so the rules that refer to each
other keep it at every depth. -/

namespace Lox
namespace Nodes

theorem exprs_append (first second : List Expr) :
    exprs (first ++ second) = exprs first ++ exprs second := by
  induction first with
  | nil => rfl
  | cons e rest ih => simp only [List.cons_append, exprs, ih, List.append_assoc]

theorem stmts_append (first second : List Stmt) :
    stmts (first ++ second) = stmts first ++ stmts second := by
  induction first with
  | nil => rfl
  | cons s rest ih => simp only [List.cons_append, stmts, ih, List.append_assoc]

theorem functions_append (first second : List FunctionDecl) :
    functions (first ++ second) = functions first ++ functions second := by
  induction first with
  | nil => rfl
  | cons decl rest ih => simp only [List.cons_append, functions, ih, List.append_assoc]

theorem fields_append (first second : List FieldDecl) :
    fields (first ++ second) = fields first ++ fields second := by
  induction first with
  | nil => rfl
  | cons decl rest ih =>
      cases decl with
      | mk name initial =>
          cases initial <;> simp only [List.cons_append, fields, ih, List.append_assoc]

theorem stmt_scoped (s : Stmt) : stmt s.scoped = stmt s := by
  cases s <;> simp only [Stmt.scoped, stmt, stmts, List.append_nil]

end Nodes

namespace Regular

theorem exprs_append {first second : List Expr} (one : exprs first) (two : exprs second) :
    exprs (first ++ second) := by
  induction first with
  | nil => exact two
  | cons e rest ih => exact ⟨one.1, ih one.2⟩

theorem stmts_append {first second : List Stmt} (one : stmts first) (two : stmts second) :
    stmts (first ++ second) := by
  induction first with
  | nil => exact two
  | cons s rest ih => exact ⟨one.1, ih one.2⟩

theorem functions_append {first second : List FunctionDecl} (one : functions first)
    (two : functions second) : functions (first ++ second) := by
  induction first with
  | nil => exact two
  | cons decl rest ih => exact ⟨one.1, ih one.2⟩

theorem fields_append {first second : List FieldDecl} (one : fields first)
    (two : fields second) : fields (first ++ second) := by
  induction first with
  | nil => exact two
  | cons decl rest ih =>
      cases decl with
      | mk name initial =>
          cases initial with
          | none => exact ih one
          | some value => exact ⟨one.1, ih one.2⟩

theorem stmt_scoped {s : Stmt} (regular : stmt s) : stmt s.scoped := by
  cases s with
  | block body => exact regular
  | _ => exact ⟨regular, trivial⟩

end Regular

theorem Stmt.declared_scoped (s : Stmt) : s.scoped.declared = [] := by
  cases s <;> rfl

namespace Grammar

/-- A tree that is regular and whose nodes are numbered between two bounds. -/
structure Fit (regular : Prop) (low high : Nat) (ids : List Nat) : Prop where
  regular : regular
  up : low ≤ high
  numbered : Numbered low high ids

def Fit.stmts (low high : Nat) (ss : List Stmt) : Prop :=
  Fit (Regular.stmts ss) low high (Nodes.stmts ss)

/-- A tree whose nodes are numbered between two bounds, and that is regular if something is told. -/
def Fits (told regular : Prop) (low high : Nat) (ids : List Nat) : Prop :=
  Fit (told → regular) low high ids

namespace Fits

variable {told p q r : Prop} {low middle high : Nat} {ids others : List Nat}

theorem leaf (regular : p) (up : low ≤ high) : Fits told p low high [] :=
  ⟨fun _ => regular, up, Numbered.nil⟩

theorem single (regular : told → p) : Fits told p low (low + 1) [low] :=
  ⟨regular, Nat.le_succ low, Numbered.singleton low⟩

theorem append (one : Fits told p low middle ids) (two : Fits told q middle high others)
    (both : p → q → r) : Fits told r low high (ids ++ others) :=
  ⟨fun isTold => both (one.regular isTold) (two.regular isTold), Nat.le_trans one.up two.up,
    one.numbered.append two.numbered one.up two.up⟩

theorem imp (fit : Fits told p low high ids) (more : p → q) : Fits told q low high ids :=
  ⟨fun isTold => more (fit.regular isTold), fit.up, fit.numbered⟩

theorem widen (fit : Fits told p low middle ids) (more : middle ≤ high) : Fits told p low high ids :=
  ⟨fit.regular, Nat.le_trans fit.up more, fit.numbered.widen (Nat.le_refl _) more⟩

theorem perm (fit : Fits told p low high ids) (same : others.Perm ids) : Fits told p low high others :=
  ⟨fit.regular, fit.up, fit.numbered.perm same⟩

theorem congr (fit : Fits told p low high ids) (same : others = ids) : Fits told p low high others :=
  same ▸ fit

def expr (told : Prop) (low high : Nat) (e : Expr) : Prop :=
  Fits told (Regular.expr e) low high (Nodes.expr e)

def exprs (told : Prop) (low high : Nat) (es : List Expr) : Prop :=
  Fits told (Regular.exprs es) low high (Nodes.exprs es)

def stmt (told : Prop) (low high : Nat) (s : Stmt) : Prop :=
  Fits told (Regular.stmt s) low high (Nodes.stmt s)

def stmts (told : Prop) (low high : Nat) (ss : List Stmt) : Prop :=
  Fits told (Regular.stmts ss) low high (Nodes.stmts ss)

def params (told : Prop) (low high : Nat) (parameters : List Param) : Prop :=
  Fits told (Regular.params parameters) low high (Nodes.params parameters)

def function (told : Prop) (low high : Nat) (decl : FunctionDecl) : Prop :=
  Fits told (Regular.function decl) low high (Nodes.function decl)

def fields (told : Prop) (low high : Nat) (decls : List FieldDecl) : Prop :=
  Fits told (Regular.fields decls) low high (Nodes.fields decls)

/-- A statement that can stand alone as the body of a branch or loop. -/
def bare (told : Prop) (low high : Nat) (s : Stmt) : Prop :=
  Fits told (Regular.stmt s ∧ s.declared = []) low high (Nodes.stmt s)

def optional (told : Prop) (low high : Nat) (found : Option Expr) : Prop :=
  Fits told (∀ e ∈ found, Regular.expr e) low high (found.elim [] Nodes.expr)

theorem optional_none (low : Nat) : optional told low low none :=
  leaf (fun _ impossible => nomatch impossible) (Nat.le_refl low)

theorem optional_some {e : Expr} (fit : expr told low high e) : optional told low high (some e) :=
  fit.imp fun regular _ same => Option.some.inj same ▸ regular

theorem bare_scoped {s : Stmt} (fit : stmt told low high s) : bare told low high s.scoped :=
  (fit.imp fun regular => ⟨Regular.stmt_scoped regular, s.declared_scoped⟩).congr
    (Nodes.stmt_scoped s)

theorem exprs_concat {earlier : List Expr} {e : Expr} (fit : exprs told low middle earlier)
    (own : expr told middle high e) : exprs told low high (earlier ++ [e]) := by
  refine (fit.append own fun regular last => ?_).congr ?_
  · exact Regular.exprs_append regular (show Regular.exprs [e] from ⟨last, trivial⟩)
  · rw [Nodes.exprs_append, Nodes.exprs, Nodes.exprs, List.append_nil]

theorem stmts_concat {earlier : List Stmt} {s : Stmt} (fit : stmts told low middle earlier)
    (own : stmt told middle high s) : stmts told low high (earlier ++ [s]) := by
  refine (fit.append own fun regular last => ?_).congr ?_
  · exact Regular.stmts_append regular (show Regular.stmts [s] from ⟨last, trivial⟩)
  · rw [Nodes.stmts_append, Nodes.stmts, Nodes.stmts, List.append_nil]

theorem params_concat {earlier : List Param} {name : Token} (fit : params told low middle earlier)
    (named : told → name.lexeme ≠ thisName) :
    params told low (middle + 1) (earlier ++ [⟨middle, name⟩]) := by
  refine (fit.append (single named) (r := Regular.params (earlier ++ [⟨middle, name⟩])) ?_).congr ?_
  · intro regular last param member
    rcases List.mem_append.mp member with before | own
    · exact regular param before
    · rw [List.mem_singleton.mp own]
      exact last
  · rw [Nodes.params, List.map_append]
    rfl

end Fits

structure Rules.Promising (told : Prop) (rules : Rules) : Prop where
  expression : ∀ (start : Nat) (min : Level),
    Promises told start (rules.expression min) (Fits.expr told start)
  statement : ∀ start : Nat, Promises told start rules.statement (Fits.bare told start)
  declaration : ∀ start : Nat, Promises told start rules.declaration fun last found =>
    ∀ s ∈ found, Fits.stmt told start last s

theorem Token.kind_of_name {token : Token} (found : token.terminal? = some .name) :
    token.kind = .identifier := by
  unfold Token.terminal? at found
  split at found <;> first | assumption | cases found

namespace Rules

theorem parameterRound_promises {told : Prop} {start : Nat} (middle : Nat) (found : List Param)
    (fit : Fits.params told start middle found.reverse) :
    Promises told middle (parameterRound found)
      (Rule.Kept (fun last found => Fits.params told start last found.reverse) (Fits.params told start)) := by
  unfold parameterRound
  split
  · exact Rule.fail_promises _
  · refine (Rule.expect_promises _ _).bind_still fun name read => ?_
    apply Rule.fresh_bind_promises
    have more := Fits.params_concat fit fun isTold =>
      (read.1 isTold).name (Token.kind_of_name read.2)
    rw [← List.reverse_cons] at more
    refine (Rule.accept_promises _).bind_still fun again _ => ?_
    split
    · exact Promises.pure more
    · exact Promises.pure more

section

variable {told : Prop} {rules : Rules} (promising : rules.Promising told) {start : Nat}
include promising

theorem blockRound_promises (middle : Nat) (found : List Stmt)
    (fit : Fits.stmts told start middle found.reverse) :
    Promises told middle (rules.blockRound found)
      (Rule.Kept (fun last found => Fits.stmts told start last found.reverse) (Fits.stmts told start)) := by
  unfold blockRound
  refine (Rule.check_promises _).bind_still fun closed _ => ?_
  refine Rule.atEnd_promises.bind_still fun atEnd _ => ?_
  split
  · exact Promises.pure fit
  · refine (promising.declaration _).bind fun last next up read => ?_
    cases next with
    | none => exact Promises.pure (fit.widen up)
    | some s =>
        have more := Fits.stmts_concat fit (read s rfl)
        rw [← List.reverse_cons] at more
        exact Promises.pure more

theorem block_promises : Promises told start rules.block (Fits.stmts told start) := by
  unfold block
  refine (Rule.iterate_promises (blockRound_promises promising) rules.bound start []
    (Fits.leaf trivial (Nat.le_refl _))).bind fun last body _ fit => ?_
  refine (Rule.expect_promises _ _).bind_still fun _ _ => ?_
  exact Promises.pure fit

omit promising in
theorem parameters_promises : Promises told start rules.parameters (Fits.params told start) := by
  have none : Fits.params told start start [] := Fits.leaf (fun _ impossible => nomatch impossible)
    (Nat.le_refl _)
  unfold parameters
  refine (Rule.check_promises _).bind_still fun closed _ => ?_
  split
  · exact Promises.pure none
  · exact Rule.iterate_promises parameterRound_promises rules.bound _ [] none

theorem functionBody_promises (name : Option Token) (kind : FunctionKind) :
    Promises told start (rules.functionBody name kind) (Fits.function told start) := by
  unfold functionBody
  refine (Rule.expect_promises _ _).bind_still fun _ _ => ?_
  refine parameters_promises.bind fun _ params _ fit => ?_
  refine (Rule.expect_promises _ _).bind_still fun _ _ => ?_
  refine (Rule.expect_promises _ _).bind_still fun _ _ => ?_
  refine (block_promises promising).bind fun last body _ read => ?_
  exact Promises.pure (fit.append read And.intro)

end

end Rules
end Grammar

/-! ### Expressions

Expressions that are read are regular, and their nodes have numbers of their own. A target that is
assigned to keeps the number that it had as an operand. -/

namespace Grammar.Rules

variable {told : Prop} {rules : Rules} (promising : rules.Promising told) {start : Nat}
include promising

theorem argumentRound_promises (middle : Nat) (found : List Expr)
    (fit : Fits.exprs told start middle found.reverse) :
    Promises told middle (rules.argumentRound found)
      (Rule.Kept (fun last found => Fits.exprs told start last found.reverse) (Fits.exprs told start)) := by
  unfold argumentRound
  split
  · exact Rule.fail_promises _
  · refine (promising.expression _ _).bind fun last argument _ read => ?_
    have more := Fits.exprs_concat fit read
    rw [← List.reverse_cons] at more
    refine (Rule.accept_promises _).bind_still fun again _ => ?_
    split
    · exact Promises.pure more
    · exact Promises.pure more

theorem arguments_promises : Promises told start rules.arguments (Fits.exprs told start) := by
  have none : Fits.exprs told start start [] := Fits.leaf trivial (Nat.le_refl _)
  unfold arguments
  refine (Rule.check_promises _).bind_still fun closed _ => ?_
  split
  · exact Promises.pure none
  · exact Rule.iterate_promises (argumentRound_promises promising) rules.bound _ [] none

omit promising in
theorem assignment_promises {middle last : Nat} (equals : Token) {target value : Expr}
    (left : Fits.expr told start middle target) (right : Fits.expr told middle last value) :
    Promises told last (assignment equals target value) (Fits.expr told start) := by
  unfold assignment
  split
  · refine Promises.pure ((left.append right fun name value => ?_).perm List.perm_append_comm)
    exact ⟨name, value⟩
  · refine Promises.pure ((left.append right fun object value => ?_).perm List.perm_append_comm)
    exact ⟨object, value⟩
  · exact Rule.failAt_promises _ _

theorem operand_promises : Promises told start rules.operand (Fits.expr told start) := by
  have literal (value : Literal) : Fits.expr told start start (.literal value) :=
    Fits.leaf trivial (Nat.le_refl _)
  unfold operand
  refine Rule.peek_promises.bind_still fun token spelled => ?_
  split
  · refine Rule.advance_promises.bind_still fun _ _ => ?_
    refine (promising.expression _ _).bind fun last inner _ read => ?_
    exact (Rule.expect_promises _ _).bind_still fun _ _ => Promises.pure read
  · refine Rule.advance_promises.bind_still fun _ _ => ?_
    exact (promising.expression _ _).map _ fun last right _ read => read
  · refine Rule.advance_promises.bind_still fun _ _ => ?_
    exact (promising.expression _ _).map _ fun last right _ read => read
  · exact Rule.advance_promises.bind_still fun _ _ => Promises.pure (literal _)
  · exact Rule.advance_promises.bind_still fun _ _ => Promises.pure (literal _)
  · exact Rule.advance_promises.bind_still fun _ _ => Promises.pure (literal _)
  · exact Rule.advance_promises.bind_still fun _ _ => Promises.pure (literal _)
  · exact Rule.advance_promises.bind_still fun _ _ => Promises.pure (literal _)
  · refine Rule.advance_promises.bind_still fun _ _ => ?_
    exact (functionBody_promises promising _ _).map _ fun last decl _ read => read
  · next isName =>
      refine Rule.advance_promises.bind_still fun _ _ => ?_
      refine Rule.fresh_bind_promises (Promises.pure ?_)
      exact Fits.single fun isTold => (spelled isTold).name isName
  · next isReceiver =>
      refine Rule.advance_promises.bind_still fun _ _ => ?_
      refine Rule.fresh_bind_promises (Promises.pure ?_)
      exact Fits.single fun isTold => (spelled isTold).receiver isReceiver
  · exact Rule.failAt_promises _ _

theorem extend_promises {middle : Nat} {left : Expr} (fit : Fits.expr told start middle left)
    (operator : Token) (level : Level) :
    Promises told middle (rules.extend left operator level) (Fits.expr told start) := by
  unfold extend
  split
  · refine (arguments_promises promising).bind fun last arguments _ read => ?_
    refine (Rule.expect_promises _ _).bind_still fun _ _ => ?_
    exact Promises.pure (fit.append read And.intro)
  · exact (Rule.expect_promises _ _).bind_still fun _ _ => Promises.pure fit
  · refine (promising.expression _ _).bind fun _ thenBranch _ chosen => ?_
    refine (Rule.expect_promises _ _).bind_still fun _ _ => ?_
    refine (promising.expression _ _).map _ fun last elseBranch _ other => ?_
    exact (fit.append chosen And.intro).append other fun both last => ⟨both.1, both.2, last⟩
  · refine (promising.expression _ _).bind fun _ value _ read => ?_
    exact assignment_promises operator fit read
  · exact (promising.expression _ _).map _ fun last right _ read => fit.append read And.intro
  · exact (promising.expression _ _).map _ fun last right _ read => fit.append read And.intro
  · exact (promising.expression _ _).map _ fun last right _ read => fit.append read And.intro

theorem operatorRound_promises (min : Level) (middle : Nat) (left : Expr)
    (fit : Fits.expr told start middle left) :
    Promises told middle (rules.operatorRound min left)
      (Rule.Kept (Fits.expr told start) (Fits.expr told start)) := by
  unfold operatorRound
  refine Rule.peek_promises.bind_still fun operator _ => ?_
  split
  · exact Promises.pure fit
  · split
    · exact Promises.pure fit
    · refine Rule.advance_promises.bind_still fun _ _ => ?_
      exact (extend_promises promising fit operator _).map _ fun _ _ _ more => more

theorem expressionAt_promises (min : Level) :
    Promises told start (rules.expressionAt min) (Fits.expr told start) := by
  unfold expressionAt
  refine (operand_promises promising).bind fun middle left _ fit => ?_
  exact Rule.iterate_promises (operatorRound_promises promising min) rules.bound middle left fit

end Grammar.Rules
end Lox
