import Lox.Grammar.Expression
import Lox.Proofs.Reading.Abreast

set_option autoImplicit false

/-! Blocks, bodies of functions and expressions, read abreast. How deep the rules refer to each other is
measured against the tokens that are left: three levels are enough for each token, and an expression
takes one more, a statement two and a declaration three. -/

namespace Lox

variable {like : Likeness}

theorem Exprs.Like.of_forall {es es' : List Expr} (all : List.Forall₂ (Expr.Like like) es es') :
    Exprs.Like like es es' := by
  induction all with
  | nil => exact .nil
  | cons head _ ih => exact .cons head ih

theorem Stmts.Like.of_forall {ss ss' : List Stmt} (all : List.Forall₂ (Stmt.Like like) ss ss') :
    Stmts.Like like ss ss' := by
  induction all with
  | nil => exact .nil
  | cons head _ ih => exact .cons head ih

namespace Grammar

/-- Rules that read abreast where they may refer to each other that deep. -/
structure Rules.Abreast (r : Reading) (deep : Nat) (one two : Rules) : Prop where
  bound : deep ≤ one.bound
  limit : deep ≤ two.bound
  expression : ∀ (n : Nat) (min : Level), 3 * n + 1 ≤ deep →
    Grammar.Abreast r n (fun m e f => m < n ∧ Expr.Like r.likeness e f) (one.expression min)
      (two.expression min)
  statement : ∀ n : Nat, 3 * n + 2 ≤ deep →
    Grammar.Abreast r n
      (fun m s t => m < n ∧ Stmt.Like r.likeness s t ∧ s.declared = [] ∧ t.declared = [])
      one.statement two.statement
  declaration : ∀ n : Nat, 3 * n + 3 ≤ deep →
    Grammar.Abreast r n (fun m s t => (0 < n → m < n) ∧ Option.Rel (Stmt.Like r.likeness) s t)
      one.declaration two.declaration

namespace Rules

open Grammar.Abreast (Kept)

variable {r : Reading} {deep n : Nat} {one two : Rules}

theorem parameterRound_abreast (m : Nat) (found other : List Param)
    (alike : List.Forall₂ (Param.Like r.likeness) found other) :
    Grammar.Abreast r m (Kept (List.Forall₂ (Param.Like r.likeness))
      (fun _ => List.Forall₂ (Param.Like r.likeness)) m) (parameterRound found)
      (parameterRound other) := by
  unfold parameterRound
  rw [← alike.length_eq]
  split
  · exact .fail _
  · refine .expect_bind _ _ fun k t u fewer pair _ => ?_
    refine .fresh_bind fun id otherId counted => ?_
    have more : List.Forall₂ (Param.Like r.likeness) (⟨id, t⟩ :: found) (⟨otherId, u⟩ :: other) :=
      .cons ⟨counted, pair⟩ alike
    refine .accept_bind _ (fun l less => ?_) ?_
    · exact .pure ⟨Nat.lt_trans less fewer, more⟩
    · exact .pure (List.rel_reverse more)

section

variable (abreast : Rules.Abreast r deep one two)
include abreast

theorem blockRound_abreast (m : Nat) (fits : 3 * m + 3 ≤ deep) (found other : List Stmt)
    (alike : List.Forall₂ (Stmt.Like r.likeness) found other) :
    Grammar.Abreast r m (Kept (List.Forall₂ (Stmt.Like r.likeness))
      (fun _ => Stmts.Like r.likeness) m) (one.blockRound found) (two.blockRound other) := by
  unfold blockRound
  refine .check_bind _ fun closed _ => ?_
  refine .atEnd_bind fun ended some => ?_
  split
  · exact .pure (.of_forall (List.rel_reverse alike))
  · next isOpen =>
      have some : 0 < m := some (by cases ended <;> simp_all)
      refine (abreast.declaration m fits).bind fun k s t _ read => ?_
      obtain ⟨fewer, same⟩ := read
      cases same with
      | none => exact .pure ⟨fewer some, alike⟩
      | some same => exact .pure ⟨fewer some, .cons same alike⟩

theorem block_abreast (fits : 3 * n + 3 ≤ deep) :
    Grammar.Abreast r n (fun m ss ts => m < n ∧ Stmts.Like r.likeness ss ts) one.block two.block := by
  have bound := abreast.bound
  have limit := abreast.limit
  unfold block
  refine (Grammar.Abreast.iterate (by omega) (by omega) .nil fun m s t few =>
    blockRound_abreast abreast m (by omega) s t).bind fun m ss ts few same => ?_
  exact .expect_bind _ _ fun k _ _ fewer _ _ => .pure ⟨by omega, same⟩

theorem parameters_abreast (bound : n < deep) :
    Grammar.Abreast r n (fun _ => List.Forall₂ (Param.Like r.likeness)) one.parameters
      two.parameters := by
  unfold parameters
  refine .check_bind _ fun closed _ => ?_
  split
  · exact .pure .nil
  · exact .iterate (Nat.lt_of_lt_of_le bound abreast.bound)
      (Nat.lt_of_lt_of_le bound abreast.limit) .nil fun m s t _ => parameterRound_abreast m s t

theorem functionBody_abreast (fits : 3 * n ≤ deep) {name name' : Option Token}
    (names : Option.Rel r.pair name name') (kind : FunctionKind) :
    Grammar.Abreast r n (fun m decl decl' => m < n ∧ FunctionDecl.Like r.likeness decl decl')
      (one.functionBody name kind) (two.functionBody name' kind) := by
  unfold functionBody
  refine .expect_bind _ _ fun _ _ _ _ _ _ => ?_
  refine (parameters_abreast abreast (by omega)).bind fun _ params params' _ parameters => ?_
  refine .expect_bind _ _ fun _ _ _ _ _ _ => ?_
  refine .expect_bind _ _ fun _ _ _ _ _ _ => ?_
  refine (block_abreast abreast (by omega)).map _ _ fun _ body body' _ read => ?_
  exact ⟨by omega, .mk names parameters read.2⟩

theorem argumentRound_abreast (m : Nat) (fits : 3 * m + 1 ≤ deep) (found other : List Expr)
    (alike : List.Forall₂ (Expr.Like r.likeness) found other) :
    Grammar.Abreast r m (Kept (List.Forall₂ (Expr.Like r.likeness))
      (fun _ => Exprs.Like r.likeness) m) (one.argumentRound found) (two.argumentRound other) := by
  unfold argumentRound
  rw [← alike.length_eq]
  split
  · exact .fail _
  · refine (abreast.expression m _ fits).bind fun k e f _ read => ?_
    have more := List.Forall₂.cons read.2 alike
    refine .accept_bind _ (fun l less => ?_) ?_
    · exact .pure ⟨Nat.lt_trans less read.1, more⟩
    · exact .pure (.of_forall (List.rel_reverse more))

theorem arguments_abreast (fits : 3 * n + 1 ≤ deep) :
    Grammar.Abreast r n (fun _ => Exprs.Like r.likeness) one.arguments two.arguments := by
  have bound := abreast.bound
  have limit := abreast.limit
  unfold arguments
  refine .check_bind _ fun closed _ => ?_
  split
  · exact .pure .nil
  · exact .iterate (by omega) (by omega) .nil fun m s t few =>
      argumentRound_abreast abreast m (by omega) s t

omit abreast in
theorem assignment_abreast {equals equals' : Token} {target target' value value' : Expr}
    (operators : r.pair equals equals') (targets : Expr.Like r.likeness target target')
    (values : Expr.Like r.likeness value value') :
    Grammar.Abreast r n (fun m e f => m = n ∧ Expr.Like r.likeness e f)
      (assignment equals target value) (assignment equals' target' value') := by
  cases targets with
  | name names => exact .pure ⟨rfl, .assign names values⟩
  | get objects names => exact .pure ⟨rfl, .set objects names values⟩
  | _ => exact .failAt _ operators

theorem operand_abreast (fits : 3 * n ≤ deep) :
    Grammar.Abreast r n (fun m e f => m < n ∧ Expr.Like r.likeness e f) one.operand
      two.operand := by
  unfold operand
  refine .peek_bind fun t u pair some => ?_
  have leaf (value : Literal) (some : 0 < n) :
      Grammar.Abreast r n (fun m e f => m < n ∧ Expr.Like r.likeness e f)
        (do Rule.advance; return .literal value) (do Rule.advance; return .literal value) :=
    .advance_bind some fun m fewer => .pure ⟨fewer, .literal value⟩
  have negated (some : 0 < n) :
      Grammar.Abreast r n (fun m e f => m < n ∧ Expr.Like r.likeness e f)
        (do Rule.advance; return .unary t (← one.expression .unary))
        (do Rule.advance; return .unary u (← two.expression .unary)) := by
    refine .advance_bind some fun m fewer => ?_
    refine (abreast.expression m _ (by omega)).map _ _ fun k e f _ read => ?_
    exact ⟨by omega, .unary pair read.2⟩
  unfold Token.isEnd at some
  rw [← (r.same t u pair).1]
  generalize t.kind = kind at some
  split
  · refine .advance_bind (some rfl) fun m fewer => ?_
    refine (abreast.expression m _ (by omega)).bind fun k e f _ read => ?_
    exact .expect_bind _ _ fun l _ _ less _ _ => .pure ⟨by omega, .grouping read.2⟩
  · exact negated (some rfl)
  · exact negated (some rfl)
  · exact leaf _ (some rfl)
  · exact leaf _ (some rfl)
  · exact leaf _ (some rfl)
  · exact leaf _ (some rfl)
  · exact leaf _ (some rfl)
  · refine .advance_bind (some rfl) fun m fewer => ?_
    refine (functionBody_abreast abreast (by omega) .none _).map _ _ fun k decl decl' _ read => ?_
    exact ⟨by omega, .function read.2⟩
  · refine .advance_bind (some rfl) fun m fewer => ?_
    exact .fresh_bind fun id other counted => .pure ⟨fewer, .name ⟨counted, pair⟩⟩
  · refine .advance_bind (some rfl) fun m fewer => ?_
    exact .fresh_bind fun id other counted => .pure ⟨fewer, .this ⟨counted, pair⟩⟩
  · exact .failAt _ pair

theorem extend_abreast (fits : 3 * n + 1 ≤ deep) {left left' : Expr} {operator operator' : Token}
    (lefts : Expr.Like r.likeness left left') (operators : r.pair operator operator')
    (level : Level) :
    Grammar.Abreast r n (fun m e f => m ≤ n ∧ Expr.Like r.likeness e f)
      (one.extend left operator level) (two.extend left' operator' level) := by
  unfold extend
  rw [← (r.same _ _ operators).1]
  generalize operator.kind = kind
  split
  · refine (arguments_abreast abreast fits).bind fun m arguments arguments' few read => ?_
    exact .expect_bind _ _ fun k _ _ less _ _ => .pure ⟨by omega, .call lefts operators read⟩
  · refine .expect_bind _ _ fun k _ _ less names _ => .pure ⟨by omega, .get lefts names⟩
  · refine (abreast.expression n _ fits).bind fun m thens thens' _ chosen => ?_
    refine .expect_bind _ _ fun k _ _ less _ _ => ?_
    refine (abreast.expression k _ (by omega)).map _ _ fun l elses elses' _ other => ?_
    exact ⟨by omega, .ternary lefts chosen.2 other.2⟩
  · refine (abreast.expression n _ fits).bind fun m value value' _ read => ?_
    exact (assignment_abreast operators lefts read.2).imp fun k e f _ same => ⟨by omega, same.2⟩
  · refine (abreast.expression n _ fits).map _ _ fun m right right' _ read => ?_
    exact ⟨by omega, .logical lefts operators read.2⟩
  · refine (abreast.expression n _ fits).map _ _ fun m right right' _ read => ?_
    exact ⟨by omega, .logical lefts operators read.2⟩
  · refine (abreast.expression n _ fits).map _ _ fun m right right' _ read => ?_
    exact ⟨by omega, .binary lefts operators read.2⟩

theorem operatorRound_abreast (min : Level) (m : Nat) (fits : 3 * m ≤ deep) (left left' : Expr)
    (lefts : Expr.Like r.likeness left left') :
    Grammar.Abreast r m (Kept (Expr.Like r.likeness) (fun _ => Expr.Like r.likeness) m)
      (one.operatorRound min left) (two.operatorRound min left') := by
  unfold operatorRound
  refine .peek_bind fun t u pair some => ?_
  rw [← (r.same t u pair).1]
  cases level : Level.ofKind? t.kind with
  | none => exact .pure lefts
  | some level =>
      dsimp only
      split
      · exact .pure lefts
      · have some : 0 < m := by
          refine some ?_
          unfold Token.isEnd
          split
          · next ends =>
              rw [ends] at level
              cases level
          · rfl
        refine .advance_bind some fun k fewer => ?_
        refine (extend_abreast abreast (by omega) lefts pair _).map _ _ fun l e f _ read => ?_
        exact ⟨by omega, read.2⟩

theorem expressionAt_abreast (min : Level) (fits : 3 * n ≤ deep) :
    Grammar.Abreast r n (fun m e f => m < n ∧ Expr.Like r.likeness e f) (one.expressionAt min)
      (two.expressionAt min) := by
  have bound := abreast.bound
  have limit := abreast.limit
  unfold expressionAt
  refine (operand_abreast abreast fits).bind fun m left left' _ lefts => ?_
  refine (Grammar.Abreast.iterate (by omega) (by omega) lefts.2 fun k s t few =>
    operatorRound_abreast abreast min k (by omega) s t).imp fun k e f few alike => ?_
  exact ⟨by omega, alike⟩

end

end Rules
end Grammar
end Lox
