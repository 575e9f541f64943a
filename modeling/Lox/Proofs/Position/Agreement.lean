import Lox.Proofs.Derivation.Growth
import Lox.Proofs.Position.Recovery

set_option autoImplicit false

/-! The walks follow the rules, one after the other. -/

namespace Lox.Grammar

open Walker (Steady Awaiting)

namespace Strides

variable {α β : Type} {x : Rule α} {u : Walk α} {f : α → Rule β} {g : α → Walk β}

instance first [follows : Follows x u] [one : Strides x u] [two : ∀ a, Follows (f a) (g a)] :
    Strides (x >>= f) (u >>= g) where
  strides := by
    intro w after b steady before done
    obtain ⟨a, middle, walked, later⟩ := Outcome.ok_of_bind done
    obtain ⟨-, holds⟩ := follows.pursues.leads steady walked
    obtain ⟨leads, -⟩ := (two a).pursues.leads holds later
    exact Nat.lt_of_lt_of_le (one.strides steady before walked) leads.onward

instance later [follows : Follows x u] [one : ∀ a, Follows (f a) (g a)]
    [two : ∀ a, Strides (f a) (g a)] : Strides (x >>= f) (u >>= g) where
  strides := by
    intro w after b steady before done
    obtain ⟨a, middle, walked, later⟩ := Outcome.ok_of_bind done
    obtain ⟨leads, holds⟩ := follows.pursues.leads steady walked
    rcases Nat.lt_or_eq_of_le leads.onward with passed | still
    · obtain ⟨further, -⟩ := (one a).pursues.leads holds later
      exact Nat.lt_of_lt_of_le passed further.onward
    · rw [still] at before ⊢
      exact (two a).strides holds (by rw [leads.row]; exact before) later

theorem seq [Follows x u] (_ : ∀ a, Follows (f a) (g a)) (_ : ∀ a, Strides (f a) (g a)) :
    Strides (x >>= f) (u >>= g) :=
  later

theorem either {condition : Prop} [Decidable condition] {y : Rule α} {v : Walk α}
    (one : Strides x u) (two : Strides y v) :
    Strides (if condition then x else y) (if condition then u else v) := by
  split
  · exact one
  · exact two

instance ite {condition : Prop} [Decidable condition] {y : Rule α} {v : Walk α}
    [one : Strides x u] [two : Strides y v] :
    Strides (if condition then x else y) (if condition then u else v) :=
  either one two

instance advance : Strides Rule.advance Walk.advance where
  strides := by
    intro w after b steady before done
    obtain ⟨token, middle, walked, rest⟩ := Outcome.ok_of_bind done
    rcases steady.view with ⟨last, -, -, -⟩ | ⟨first, -, -, -, more⟩
    · omega
    · rw [Walk.step_of_token steady.toInside more] at walked
      cases walked
      cases rest
      exact Nat.lt_succ_self w.current

instance expect (terminal : Terminal) (fault : SyntaxFault) :
    Strides (Rule.expect terminal fault) (Walk.expect terminal fault) where
  strides := by
    intro w after token steady before done
    rw [Walk.expect, Outcome.bind_of_ok (Walk.check_eq steady.toInside terminal)] at done
    split at done
    · rcases steady.view with ⟨last, -, -, -⟩ | ⟨first, -, -, -, more⟩
      · omega
      · rw [Walk.step_of_token steady.toInside more] at done
        cases done
        exact Nat.lt_succ_self w.current
    · rw [Walk.fail, Outcome.bind_of_ok (Walk.peek_eq steady.toInside)] at done
      cases done

end Strides

/-- Walks that follow the rules that refer to each other. A declaration can be begun where a keyword is
awaited. -/
class Followed (rules : Rules) (walks : Walks) : Prop where
  bound : rules.bound = walks.bound
  expression : ∀ min : Level, Follows (rules.expression min) (walks.expression min)
  statement : Follows rules.statement walks.statement
  strides : Strides rules.statement walks.statement
  declaration : Pursues Awaiting (fun _ => Awaiting) rules.declaration walks.declaration

attribute [instance] Followed.expression Followed.statement Followed.strides

/-- From where a declaration may be begun, a round of a row of declarations leads on to such a place, and
the last one to a place that is good. -/
def Onward (good : Walker → Prop) : Rule.Round (List Stmt) (List Stmt) → Walker → Prop
  | .again _ => Awaiting
  | .finish _ => good

theorem onward_pursues (good : Walker → Prop) (found : List Stmt) (s : Option Stmt) :
    Pursues Awaiting (Onward good) (Rules.onward found s) (Walks.onward found s) := by
  cases s with
  | none => exact .pure fun _ awaiting => awaiting
  | some s => exact .pure fun _ awaiting => awaiting

/-- A row of declarations is followed if each round of it is. -/
theorem declarations_pursue {good : Walker → Prop}
    {round : List Stmt → Rule (Rule.Round (List Stmt) (List Stmt))}
    {other : List Stmt → Walk (Rule.Round (List Stmt) (List Stmt))}
    (each : ∀ found, Pursues Awaiting (Onward good) (round found) (other found)) (bound : Nat) :
    Pursues Steady (fun _ => good) (Rule.iterate round bound []) (Walk.iterate other bound []) := by
  intro w steady
  refine Pursues.iterate (fun found => (each found).mono ?_) bound [] w steady.awaiting
  rintro (_ | _) w holds <;> exact holds

namespace Followed

variable {rules : Rules} {walks : Walks} [followed : Followed rules walks]

instance iterate {α σ : Type} {round : σ → Rule (Rule.Round σ α)}
    {other : σ → Walk (Rule.Round σ α)} [∀ state, Follows (round state) (other state)] (state : σ) :
    Follows (Rule.iterate round rules.bound state) (Walk.iterate other walks.bound state) := by
  rw [followed.bound]
  infer_instance

theorem blockRound_pursues (found : List Stmt) :
    Pursues Awaiting (Onward Steady) (rules.blockRound found) (walks.blockRound found) := by
  intro w awaiting
  have braced : Rule.check (.symbol .rightBrace) w.cursor =
      .ok (w.pending.head?.bind Token.terminal? == some (.symbol .rightBrace)) w.cursor := rfl
  have ended : Rule.atEnd w.cursor = .ok w.pending.isEmpty w.cursor := rfl
  rw [Rules.blockRound_eq, Outcome.bind_of_ok braced, Outcome.bind_of_ok ended, Walks.blockRound,
    Outcome.bind_of_ok (Walk.check_eq awaiting.toInside _),
    Outcome.bind_of_ok (Walk.atEnd_eq awaiting.toInside)]
  split
  next stops =>
    -- Neither a closing brace nor the end begins a statement, so nothing is awaited here.
    refine .ok .rfl (awaiting.steady ?_)
    rw [startsAt, awaiting.terminalAt?]
    rcases Bool.or_eq_true_iff.mp stops with closes | ends
    · rw [beq_iff_eq.mp closes]
      rfl
    · rw [List.isEmpty_iff.mp ends]
      rfl
  next => exact followed.declaration.bind (onward_pursues Steady found) w awaiting

end Followed

section Rules

instance parameterRound_follows (found : List Param) :
    Follows (Rules.parameterRound found) (Walks.parameterRound found) := by
  unfold Rules.parameterRound Walks.parameterRound
  infer_instance

instance assignment_follows (equals : Token) (target value : Expr) :
    Follows (Rules.assignment equals target value) (Walks.assignment equals target value) := by
  unfold Rules.assignment Walks.assignment
  cases target <;> infer_instance

instance armChain_follows (hidden keyword : Token) :
    ∀ (arms : List (Expr × Stmt)) (chain : Option Stmt),
      Follows (Rules.armChain hidden keyword arms chain) (Walks.armChain hidden keyword arms chain)
  | [], chain => Follows.pure chain
  | (pattern, action) :: rest, chain => by
      have inner (id : NodeId) := armChain_follows hidden keyword rest
        (some (.branch (Rules.armTest id hidden keyword pattern) action chain))
      unfold Rules.armChain Walks.armChain
      infer_instance

variable (rules : Rules) (walks : Walks) [followed : Followed rules walks]

instance block_follows : Follows rules.block walks.block := by
  have : Follows (Rule.iterate rules.blockRound rules.bound [])
      (Walk.iterate walks.blockRound walks.bound []) := by
    rw [followed.bound]
    exact ⟨declarations_pursue Followed.blockRound_pursues walks.bound⟩
  unfold Rules.block Walks.block
  infer_instance

instance functionBody_follows (name : Option Token) (kind : FunctionKind) :
    Follows (rules.functionBody name kind) (walks.functionBody name kind) := by
  unfold Rules.functionBody Walks.functionBody Rules.parameters Walks.parameters
  infer_instance

instance argumentRound_follows (found : List Expr) :
    Follows (rules.argumentRound found) (walks.argumentRound found) := by
  unfold Rules.argumentRound Walks.argumentRound
  infer_instance

instance arguments_follows : Follows rules.arguments walks.arguments := by
  unfold Rules.arguments Walks.arguments
  infer_instance

instance operand_follows : Follows rules.operand walks.operand := by
  unfold Rules.operand Walks.operand
  refine Follows.seq fun token => ?_
  generalize token.kind = kind
  cases kind with
  | symbol s => cases s <;> infer_instance
  | keyword k => cases k <;> infer_instance
  | _ => infer_instance

instance extend_follows (left : Expr) (operator : Token) (level : Level) :
    Follows (rules.extend left operator level) (walks.extend left operator level) := by
  unfold Rules.extend Walks.extend
  dsimp only
  generalize operator.kind = kind
  cases kind with
  | symbol s => cases s <;> infer_instance
  | keyword k => cases k <;> infer_instance
  | _ => infer_instance

instance operatorRound_follows (min : Level) (left : Expr) :
    Follows (rules.operatorRound min left) (walks.operatorRound min left) := by
  unfold Rules.operatorRound Walks.operatorRound
  refine Follows.seq fun operator => ?_
  generalize Level.ofKind? operator.kind = level?
  cases level? <;> infer_instance

instance expressionAt_follows (min : Level) :
    Follows (rules.expressionAt min) (walks.expressionAt min) := by
  unfold Rules.expressionAt Walks.expressionAt
  infer_instance

instance expressionStatement_follows :
    Follows rules.expressionStatement walks.expressionStatement := by
  unfold Rules.expressionStatement Walks.expressionStatement
  infer_instance

instance expressionStatement_strides :
    Strides rules.expressionStatement walks.expressionStatement := by
  unfold Rules.expressionStatement Walks.expressionStatement
  infer_instance

instance printStatement_follows : Follows rules.printStatement walks.printStatement := by
  unfold Rules.printStatement Walks.printStatement
  infer_instance

instance returnStatement_follows (keyword : Token) :
    Follows (rules.returnStatement keyword) (walks.returnStatement keyword) := by
  unfold Rules.returnStatement Walks.returnStatement
  infer_instance

instance whileStatement_follows : Follows rules.whileStatement walks.whileStatement := by
  unfold Rules.whileStatement Walks.whileStatement
  infer_instance

instance ifStatement_follows : Follows rules.ifStatement walks.ifStatement := by
  unfold Rules.ifStatement Walks.ifStatement
  infer_instance

instance initializer_follows : Follows rules.initializer walks.initializer := by
  unfold Rules.initializer Walks.initializer
  infer_instance

instance varDeclaration_follows : Follows rules.varDeclaration walks.varDeclaration := by
  unfold Rules.varDeclaration Walks.varDeclaration
  infer_instance

instance varDeclaration_strides : Strides rules.varDeclaration walks.varDeclaration := by
  unfold Rules.varDeclaration Walks.varDeclaration
  infer_instance

instance forInitializer_follows : Follows rules.forInitializer walks.forInitializer := by
  unfold Rules.forInitializer Walks.forInitializer
  infer_instance

instance forStatement_follows : Follows rules.forStatement walks.forStatement := by
  have final (first : Option Stmt) (condition : Expr) (last : Option Expr) : Follows
      (do
        let _ ← Rule.expect (.symbol .rightParen) .forClose
        return Rules.forLoop first condition last (← rules.statement))
      (do
        let _ ← Walk.expect (.symbol .rightParen) .forClose
        return Rules.forLoop first condition last (← walks.statement)) := inferInstance
  have rest (first : Option Stmt) (condition : Expr) : Follows
      (do
        let _ ← Rule.expect (.symbol .semicolon) .loopConditionEnd
        let last ← do
          if ← Rule.check (.symbol .rightParen) then pure none
          else some <$> rules.expression .lowest
        let _ ← Rule.expect (.symbol .rightParen) .forClose
        return Rules.forLoop first condition last (← rules.statement))
      (do
        let _ ← Walk.expect (.symbol .semicolon) .loopConditionEnd
        let last ← do
          if ← Walk.check (.symbol .rightParen) then pure none
          else some <$> walks.expression .lowest
        let _ ← Walk.expect (.symbol .rightParen) .forClose
        return Rules.forLoop first condition last (← walks.statement)) := inferInstance
  unfold Rules.forStatement Walks.forStatement
  infer_instance

instance armRound_follows (found : Rules.Arms) :
    Follows (rules.armRound found) (walks.armRound found) := by
  unfold Rules.armRound Walks.armRound
  infer_instance

instance switchStatement_follows (keyword : Token) :
    Follows (rules.switchStatement keyword) (walks.switchStatement keyword) := by
  unfold Rules.switchStatement Walks.switchStatement
  refine Follows.seq fun _ => Follows.seq fun subject => ?_
  infer_instance

instance statementRule_follows : Follows rules.statementRule walks.statementRule := by
  unfold Rules.statementRule Walks.statementRule
  refine Follows.seq fun token => ?_
  generalize token.terminal? = terminal?
  cases terminal? with
  | none => infer_instance
  | some terminal =>
      cases terminal with
      | symbol s => cases s <;> infer_instance
      | keyword k => cases k <;> infer_instance
      | name => infer_instance

instance field_follows (explicit : Bool) : Follows (rules.field explicit) (walks.field explicit) := by
  unfold Rules.field Walks.field
  infer_instance

instance memberRound_follows (found : Rules.Members) :
    Follows (rules.memberRound found) (walks.memberRound found) := by
  unfold Rules.memberRound Walks.memberRound
  infer_instance

instance classDeclaration_follows : Follows rules.classDeclaration walks.classDeclaration := by
  unfold Rules.classDeclaration Walks.classDeclaration
  infer_instance

instance classDeclaration_strides : Strides rules.classDeclaration walks.classDeclaration := by
  unfold Rules.classDeclaration Walks.classDeclaration
  infer_instance

instance functionDeclaration_follows :
    Follows rules.functionDeclaration walks.functionDeclaration := by
  unfold Rules.functionDeclaration Walks.functionDeclaration
  infer_instance

instance functionDeclaration_strides :
    Strides rules.functionDeclaration walks.functionDeclaration := by
  unfold Rules.functionDeclaration Walks.functionDeclaration
  infer_instance

instance statementRule_strides : Strides rules.statementRule walks.statementRule := by
  have follows := statementRule_follows rules walks
  unfold Rules.statementRule Walks.statementRule
  refine Strides.seq (fun token => ?_) fun token => ?_
  all_goals
    generalize token.terminal? = terminal?
    cases terminal? with
    | none => infer_instance
    | some terminal =>
        cases terminal with
        | symbol s => cases s <;> infer_instance
        | keyword k => cases k <;> infer_instance
        | name => infer_instance

instance declarationOrStatement_follows :
    Follows rules.declarationOrStatement walks.declarationOrStatement := by
  unfold Rules.declarationOrStatement Walks.declarationOrStatement
  infer_instance

instance declarationOrStatement_strides :
    Strides rules.declarationOrStatement walks.declarationOrStatement := by
  unfold Rules.declarationOrStatement Walks.declarationOrStatement
  refine Strides.seq (fun _ => inferInstance) fun isVar => ?_
  refine Strides.either inferInstance (Strides.seq (fun _ => inferInstance) fun isClass => ?_)
  infer_instance

end Rules

/-- To every depth the walks follow the rules. -/
instance rulesAt_followed : ∀ depth : Nat, Followed (rulesAt depth) (walksAt depth)
  | 0 => ⟨rfl, fun _ => Follows.exhausted, Follows.exhausted, ⟨fun _ _ done => nomatch done⟩,
      fun _ _ => .exhausted⟩
  | depth + 1 =>
      have := rulesAt_followed depth
      ⟨rfl, expressionAt_follows (rulesAt depth) (walksAt depth),
        statementRule_follows (rulesAt depth) (walksAt depth),
        statementRule_strides (rulesAt depth) (walksAt depth),
        recover_pursues (declarationOrStatement_follows (rulesAt depth) (walksAt depth))
          (declarationOrStatement_strides (rulesAt depth) (walksAt depth))⟩

end Lox.Grammar
