import Lox.Proofs.Grammar.Orderly
import Lox.Proofs.Loop.Agreement
import Lox.Proofs.Scope.Binding

set_option autoImplicit false

/-! Loops with clauses as they are derived. Their parts are orderly, and no declaration of a body is in sight
where the condition and the last clause stand. -/

namespace Lox.Grammar

/-- A loop with clauses: the first one, the condition, the last one, and the body. -/
inductive Derives.Loop (stop : Token) : Place → Stmt → Option Stmt → Option Expr → Option Expr → Stmt →
    Place → Prop
  | mk {p q r s t u v w x : Place} {keyword left semicolon right : Token} {first : Option Stmt}
      {condition step : Option Expr} {body : Stmt}
      (opens : Passes (.keyword .forWord) p keyword q)
      (leftParen : Passes (.symbol .leftParen) q left r) (start : LoopStart stop r first s)
      (test : Optionally (Expression stop) s condition t)
      (middle : Passes (.symbol .semicolon) t semicolon u)
      (advance : Optionally (Expression stop) u step v)
      (rightParen : Passes (.symbol .rightParen) v right w) (repeated : Statement stop w body x) :
      Loop stop p (loopImage first condition step body) first condition step body x

theorem Derives.Loop.statement {stop : Token} {p q : Place} {s body : Stmt} {first : Option Stmt}
    {condition step : Option Expr} (written : Loop stop p s first condition step body q) :
    Statement stop p s q := by
  cases written with
  | mk opens leftParen start test middle advance rightParen repeated =>
    exact .forLoop opens leftParen start test middle advance rightParen repeated

open Derives (Expression Initializer LoopStart Optionally Statement)

section

variable {stop : Token} (ends : stop.isEnd = true) {p q : Place}
include ends

theorem expression_orderly {e : Expr} (read : Expression stop p e q) : Tree.expr e := by
  have deep := Nat.le_refl (3 * p.tokens.length + 1)
  have done := ((rulesAt_speaks ends deep).expression deep).mpr read
  exact (rulesAt_orderly _).expression .lowest _ _ _ done

theorem optionally_orderly {found : Option Expr} (read : Optionally (Expression stop) p found q) :
    ∀ e ∈ found, Tree.expr e := by
  rintro e same
  cases read with
  | absent => cases same
  | present one =>
    cases same
    exact expression_orderly ends one

theorem statement_bare {s : Stmt} (derived : Statement stop p s q) : Tree.bare s := by
  have deep := Nat.le_refl (3 * p.tokens.length + 2)
  have done := ((rulesAt_speaks ends deep).statement deep).mpr derived
  exact (rulesAt_orderly _).statement _ _ _ done

theorem initial_orderly {id : NodeId} {name : Token} {initial : Option Expr}
    (read : Initializer stop p initial q) : Tree.stmt (.var id name initial) := by
  cases read with
  | absent => trivial
  | present _ value => exact expression_orderly ends value

theorem loopStart_orderly {first : Option Stmt} (start : LoopStart stop p first q) :
    ∀ s ∈ first, Tree.stmt s := by
  rintro s same
  cases start with
  | absent => cases same
  | var declared =>
    cases same
    obtain ⟨-, -, -, value, -⟩ := declared
    exact initial_orderly ends value
  | value one =>
    cases same
    obtain ⟨read, -⟩ := one
    exact expression_orderly ends read

end
end Lox.Grammar

namespace Lox.Loop

open Grammar.Derives (loopImage)

/-- Where the condition of a loop stands: what is declared first is in sight. -/
def headPlace (path : Path) : Option Stmt → Path
  | none => path
  | some first => Path.past (.block [] :: path) first

/-- Where the last clause of a loop stands: after the body, in the block of the round. -/
def stepPlace (path : Path) (first : Option Stmt) (body : Stmt) : Path :=
  Path.past (.block [] :: headPlace path first) body

/-- In the last clause what is in sight is what is in sight at the head of the loop. -/
theorem binders_stepPlace (path : Path) (first : Option Stmt) {body : Stmt} (bare : body.declared = []) :
    (stepPlace path first body).binders = (headPlace path first).binders := by
  simp [stepPlace, Path.past, Step.past, Path.binders, Step.binders, bare]

variable {path : Path} {first : Option Stmt} {condition step : Option Expr} {body : Stmt}

theorem sites_loop_subset :
    ∀ site ∈ Sites.stmt (headPlace path first)
        (.loop (condition.getD (.literal (.bool true))) (repeated step body)),
      site ∈ Sites.stmt path (loopImage first condition step body) := by
  intro site member
  cases first with
  | none => exact member
  | some s => exact List.mem_append_right _ (List.mem_append_left _ member)

theorem sites_condition {e : Expr} (present : condition = some e) :
    ∀ site ∈ Sites.expr (headPlace path first) e,
      site ∈ Sites.stmt path (loopImage first condition step body) := by
  intro site member
  subst present
  exact sites_loop_subset site (List.mem_append_left _ member)

theorem sites_step {e : Expr} (present : step = some e) :
    ∀ site ∈ Sites.expr (stepPlace path first body) e,
      site ∈ Sites.stmt path (loopImage first condition step body) := by
  intro site member
  subst present
  exact sites_loop_subset site
    (List.mem_append_right _ (List.mem_append_right _ (List.mem_append_left _ member)))

theorem means_head {bindings : Bindings} (bare : body.declared = []) {name : String} {id : NodeId}
    (means : bindings.Means (stepPlace path first body) name id) :
    bindings.Means (headPlace path first) name id := by
  unfold Bindings.Means Path.declaration? at means ⊢
  rw [binders_stepPlace path first bare] at means
  exact means

end Lox.Loop
