import Lox.Proofs.Derivation.Grammar
import Lox.Proofs.Trace.Restore

set_option autoImplicit false

/-! Loops with clauses, run as they are written. The first clause runs once, in a scope that the whole loop
shares; each round has a scope of its own for the body alone, and the last clause is evaluated outside it. -/

namespace Lox.Loop

open Exec (capture within repeatWhile)

/-- The first clause, if there is one. -/
def start (ctx : Context) : Option Stmt → Exec Flow
  | none => return .normal
  | some first => Exec.stmt ctx first

/-- A condition that is missing is true. -/
def test (ctx : Context) : Option Expr → Exec Bool
  | none => return true
  | some condition => Value.isTruthy <$> Exec.expr ctx condition

def advance (ctx : Context) : Option Expr → Exec Unit
  | none => return ()
  | some step => do
    let _ ← Exec.expr ctx step

/-- The statements of a body; a block is what stands in it. -/
def contents : Stmt → List Stmt
  | .block body => body
  | s => [s]

/-- A body runs in a new scope. -/
def body (ctx : Context) (s : Stmt) : Exec Flow := do
  within (← capture) (Exec.stmts ctx (contents s))

/-- The body and then the last clause, unless the body returns. -/
def round (ctx : Context) (step : Option Expr) (inner : Exec Flow) : Exec Flow := do
  match ← inner with
  | .normal =>
    advance ctx step
    return .normal
  | .returned value => return .returned value

def run (ctx : Context) (first : Option Stmt) (condition step : Option Expr) (inner : Exec Flow) :
    Exec Flow := do
  within (← capture) do
    match ← start ctx first with
    | .normal => repeatWhile (test ctx condition) (round ctx step inner) ctx.rounds
    | .returned value => return .returned value

theorem stmt_scoped (ctx : Context) (s : Stmt) : Exec.stmt ctx s.scoped = body ctx s := by
  cases s <;> rfl

theorem round_none (ctx : Context) (inner : Exec Flow) : round ctx none inner = inner := by
  have ends (flow : Flow) : (match flow with
      | .normal => do
        advance ctx none
        return .normal
      | .returned value => return .returned value : Exec Flow) = pure flow := by
    cases flow <;> rfl
  unfold round
  simp only [ends, bind_pure]

/-! ### One scope for all rounds -/

/-- The machine in the scope of a loop, as it is about to test the condition for the first time or once more. -/
inductive Head (ctx : Context) (first : Option Stmt) (condition step : Option Expr) (inner : Exec Flow)
    (m : Machine) : Machine → Prop
  | first {head : Machine}
      (started : start ctx first { m with environment := m.environment.enter } = .ok .normal head) :
      Head ctx first condition step inner m head
  | again {head tested later : Machine} (before : Head ctx first condition step inner m head)
      (holds : test ctx condition head = .ok true tested)
      (ran : round ctx step inner tested = .ok .normal later) :
      Head ctx first condition step inner m later

section

variable {bindings : Bindings} {limit bound : Nat} {m : Machine} {α β : Type}

theorem stays_bind {x : Exec α} {f : α → Exec β} (one : x.Stays m) (rest : ∀ a after, (f a).Stays after) :
    (x >>= f).Stays m := by
  unfold Exec.Stays at *
  cases done : x m with
  | ok a after =>
    rw [Outcome.bind_of_ok done]
    rw [done] at one
    exact one.trans (rest a after)
  | error stop after =>
    rw [Outcome.bind_of_error done]
    rw [done] at one
    exact one

theorem current_of_stays {x : Exec α} {last : Machine} {a : α} (stays : x.Stays m)
    (done : x m = .ok a last) : last.environment.current = m.environment.current := by
  unfold Exec.Stays at stays
  rw [done] at stays
  exact stays.current

theorem start_stays (first : Option Stmt) : (start (Exec.context bindings limit bound) first).Stays m := by
  cases first with
  | none => exact Exec.stays_pure
  | some s => exact Exec.stmt_stays bindings limit bound m s

theorem test_stays (condition : Option Expr) :
    (test (Exec.context bindings limit bound) condition).Stays m := by
  cases condition with
  | none => exact Exec.stays_pure
  | some e =>
    have same : test (Exec.context bindings limit bound) (some e) = (do
        let value ← Exec.expr (Exec.context bindings limit bound) e
        return value.isTruthy) := map_eq_pure_bind _ _
    rw [same]
    exact stays_bind (Exec.expr_stays bindings limit bound m e) fun _ _ => Exec.stays_pure

theorem advance_stays (step : Option Expr) :
    (advance (Exec.context bindings limit bound) step).Stays m := by
  cases step with
  | none => exact Exec.stays_pure
  | some e => exact stays_bind (Exec.expr_stays bindings limit bound m e) fun _ _ => Exec.stays_pure

theorem body_stays (s : Stmt) : (body (Exec.context bindings limit bound) s).Stays m := by
  rw [← stmt_scoped]
  exact Exec.stmt_stays bindings limit bound m s.scoped

theorem round_stays (step : Option Expr) {inner : Exec Flow} (kept : inner.Stays m) :
    (round (Exec.context bindings limit bound) step inner).Stays m := by
  refine stays_bind kept fun flow after => ?_
  cases flow with
  | normal => exact stays_bind (advance_stays step) fun _ _ => Exec.stays_pure
  | returned value => exact Exec.stays_pure

/-- Each round begins in the one scope of the loop, the scope that the first clause ran in. -/
theorem Head.current {first : Option Stmt} {condition step : Option Expr} {inner : Exec Flow}
    {head : Machine} (kept : ∀ m, inner.Stays m)
    (reached : Head (Exec.context bindings limit bound) first condition step inner m head) :
    head.environment.current = m.environment.inner m.environment.current := by
  -- A round may change variables and objects; what it leaves is the scope that it began in.
  induction reached with
  | first started => exact current_of_stays (start_stays first) started
  | again before holds ran same =>
    have tested := current_of_stays (test_stays condition) holds
    exact (current_of_stays (round_stays step (kept _)) ran).trans (tested.trans same)

/-- Whatever the scope of the loop holds is found there in all rounds and ever after, also from the scope of a
body that does not hold it itself. -/
theorem Head.shares {first : Option Stmt} {condition step : Option Expr} {inner : Exec Flow} {head : Machine}
    (kept : ∀ m, inner.Stays m)
    (reached : Head (Exec.context bindings limit bound) first condition step inner m head)
    (later : Environment) {slot : Slot}
    (held : (later.frame m.environment.frames.size).contains slot = true) :
    later.find? head.environment.current slot = some m.environment.frames.size ∧
      ∀ own, (later.frame own).contains slot = false →
        later.find? ⟨own, head.environment.current.frames⟩ slot = some m.environment.frames.size := by
  have found : later.find? head.environment.current slot = some m.environment.frames.size := by
    rw [reached.current kept]
    exact List.find?_cons_of_pos held
  refine ⟨found, fun own other => ?_⟩
  rw [← found]
  exact List.find?_cons_of_neg (Bool.not_eq_true _ ▸ other)

end
end Lox.Loop
