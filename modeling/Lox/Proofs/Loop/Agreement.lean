import Lox.Proofs.Loop.Direct
import Lox.Proofs.Loop.Operations

set_option autoImplicit false

/-! A loop with clauses that has been written out runs as it is written. The frames of the two differ: a
block that is written out for a round holds nothing of its own, and neither does the scope of a loop
that declares nothing. -/

namespace Lox.Loop

open Exec (capture within repeatWhile within_concurs within_left_concurs within_right_concurs)
open Grammar.Derives (loopImage)
open Machine (mirrors)

/-- What is repeated, as it is written out. -/
def repeated (step : Option Expr) (s : Stmt) : Stmt :=
  match step with
  | some step => .block [s, .expression step]
  | none => s.scoped

variable {proper : ClassDecl → Prop} {w : Couple Pairing Machine Machine} {ctx : Context}
  (calls : ∀ id arguments w, (mirrors proper).agree w →
    Concurs (mirrors proper) w Bond.any (ctx.call id arguments w.left) (ctx.call id arguments w.right))
include calls

theorem expr_concurs {e : Expr} (orderly : Orderly.expr proper e) (agree : (mirrors proper).agree w) :
    Concurs (mirrors proper) w Bond.any (Exec.expr ctx e w.left) (Exec.expr ctx e w.right) := by
  have ran := (Exec.steps_tandem calls).expr e orderly w agree
  rw [Exec.expr_steps] at ran
  exact ran

theorem stmt_concurs {s : Stmt} (orderly : Orderly.stmt proper s) (agree : (mirrors proper).agree w)
    (either : (mirrors proper).opens w ∨ s.declared = []) :
    Concurs (mirrors proper) w Bond.any (Exec.stmt ctx s w.left) (Exec.stmt ctx s w.right) := by
  have ran := (Exec.steps_tandem calls).stmt s orderly w agree either
  rw [Exec.stmt_steps] at ran
  exact ran.imp fun _ _ _ => trivial

theorem stmts_concurs {ss : List Stmt} (orderly : Orderly.stmts proper ss)
    (agree : (mirrors proper).agree w) (opens : (mirrors proper).opens w) :
    Concurs (mirrors proper) w Bond.any (Exec.stmts ctx ss w.left) (Exec.stmts ctx ss w.right) := by
  have ran := (Exec.steps_tandem calls).stmts ss orderly w agree opens
  rw [Exec.stmts_steps] at ran
  exact ran.imp fun _ _ _ => trivial

/-- A body in a scope of its own, where only a block has one otherwise. -/
theorem body_concurs {s : Stmt} (orderly : Orderly.stmt proper s) (bare : s.declared = [])
    (agree : (mirrors proper).agree w) :
    Concurs (mirrors proper) w Bond.any (Exec.stmt ctx s w.left) (body ctx s w.right) := by
  have single (bare : s.declared = []) : Concurs (mirrors proper) w Bond.any (Exec.stmt ctx s w.left)
      (within w.right.environment.current (Exec.stmts ctx [s]) w.right) := by
    rw [Exec.stmts_singleton]
    exact within_right_concurs agree fun v agree => stmt_concurs calls orderly agree (.inr bare)
  cases s with
  | block statements =>
    exact within_concurs agree agree.current fun v agree opens => stmts_concurs calls orderly agree opens
  | _ => exact single bare

section

variable {condition step : Option Expr} {s : Stmt} {inner : Exec Flow}
  (kept : ∀ w, (mirrors proper).agree w →
    Concurs (mirrors proper) w Bond.any (Exec.stmt ctx s w.left) (inner w.right))

omit calls in
include kept in
theorem scoped_concurs (agree : (mirrors proper).agree w) :
    Concurs (mirrors proper) w Bond.any (Exec.stmt ctx s.scoped w.left) (inner w.right) := by
  have single : Concurs (mirrors proper) w Bond.any
      (within w.left.environment.current (Exec.stmts ctx [s]) w.left) (inner w.right) := by
    rw [Exec.stmts_singleton]
    exact within_left_concurs agree kept
  cases s with
  | block statements => exact kept w agree
  | _ => exact single

include kept

/-- One round: the block that holds a body and the step after it is void. -/
theorem round_concurs (advances : ∀ e ∈ step, Orderly.expr proper e) (agree : (mirrors proper).agree w) :
    Concurs (mirrors proper) w Bond.any (Exec.stmt ctx (repeated step s) w.left)
      (round ctx step inner w.right) := by
  cases step with
  | none =>
    rw [round_none]
    exact scoped_concurs kept agree
  | some e =>
    -- What is written out has a scope around the body and the last clause, in which nothing is declared.
    refine within_left_concurs agree fun v agree => ?_
    unfold Exec.stmts
    refine (kept v agree).bind fun after flow _ agree _ => ?_
    cases flow with
    | normal =>
      simp only [Exec.stmts_singleton, Exec.stmt, advance, bind_assoc, pure_bind]
      exact (expr_concurs calls (advances e rfl) agree).bind fun _ _ _ agree _ => .pure agree trivial
    | returned value => exact .pure agree trivial

/-- The rounds of a loop, each after its test. -/
theorem rounds_concur (tests : ∀ e ∈ condition, Orderly.expr proper e)
    (advances : ∀ e ∈ step, Orderly.expr proper e) (agree : (mirrors proper).agree w) :
    Concurs (mirrors proper) w Bond.any
      (Exec.stmt ctx (.loop (condition.getD (.literal (.bool true))) (repeated step s)) w.left)
      (repeatWhile (test ctx condition) (round ctx step inner) ctx.rounds w.right) := by
  have tested : ∀ v, (mirrors proper).agree v → Concurs (mirrors proper) v Bond.any
      ((Value.isTruthy <$> Exec.expr ctx (condition.getD (.literal (.bool true)))) v.left)
      (test ctx condition v.right) := by
    intro v agree
    cases condition with
    | none => exact .pure agree trivial
    | some e => exact (expr_concurs calls (tests e rfl) agree).map _
  unfold Exec.stmt
  rw [← Exec.repeatWhile_steps, ← Exec.repeatWhile_steps]
  refine (Concurs.repeatWhile tested (fun v _ agree => ?_) ctx.rounds agree).imp fun _ _ _ => trivial
  exact Exec.flow_concurs (round_concurs calls kept advances agree)

/-- A loop that has been written out does what the loop says, if the body does what is run for it. -/
theorem loop_concurs {first : Option Stmt} (starts : ∀ s ∈ first, Orderly.stmt proper s)
    (tests : ∀ e ∈ condition, Orderly.expr proper e) (advances : ∀ e ∈ step, Orderly.expr proper e)
    (agree : (mirrors proper).agree w) :
    Concurs (mirrors proper) w Bond.any (Exec.stmt ctx (loopImage first condition step s) w.left)
      (run ctx first condition step inner w.right) := by
  cases first with
  | none => exact within_right_concurs agree fun v agree => rounds_concur calls kept tests advances agree
  | some begins =>
    refine within_concurs agree agree.current fun v agree opens => ?_
    unfold Exec.stmts
    refine (stmt_concurs calls (starts begins rfl) agree (.inl opens)).bind fun after flow _ agree _ => ?_
    cases flow with
    | normal =>
      rw [Exec.stmts_singleton]
      exact rounds_concur calls kept tests advances agree
    | returned value => exact .pure agree trivial

end
end Lox.Loop
