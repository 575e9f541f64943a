import Lox.Proofs.Derivation.Accepts

set_option autoImplicit false

/-! No rule of the grammar takes back an error that has been recorded. -/

namespace Lox.Grammar

/-- Rules that refer only to rules that keep the errors that have been recorded. -/
class Rules.Growing (rules : Rules) : Prop where
  expression : ∀ min : Level, Grows (rules.expression min)
  statement : Grows rules.statement
  declaration : Grows rules.declaration

namespace Rules

attribute [instance] Growing.expression Growing.statement Growing.declaration

instance parameterRound_grows (found : List Param) : Grows (parameterRound found) := by
  unfold parameterRound
  infer_instance

/-- A row of declarations goes on behind one that has been read, or given up for an error. -/
def onward (found : List Stmt) : Option Stmt → Rule (Rule.Round (List Stmt) (List Stmt))
  | some stmt => pure (.again (stmt :: found))
  | none => pure (.again found)

instance onward_grows (found : List Stmt) (s : Option Stmt) : Grows (onward found s) := by
  cases s with
  | none => exact Grows.pure _
  | some s => exact Grows.pure _

theorem blockRound_eq (rules : Rules) (found : List Stmt) : rules.blockRound found = (do
    if (← Rule.check (.symbol .rightBrace)) || (← Rule.atEnd) then
      return .finish found.reverse
    else
      rules.declaration >>= onward found) :=
  rfl

variable (rules : Rules) [rules.Growing]

instance blockRound_grows (found : List Stmt) : Grows (rules.blockRound found) := by
  rw [blockRound_eq]
  infer_instance

instance block_grows : Grows rules.block := by
  unfold block
  infer_instance

instance functionBody_grows (name : Option Token) (kind : FunctionKind) :
    Grows (rules.functionBody name kind) := by
  unfold functionBody parameters
  infer_instance

instance argumentRound_grows (found : List Expr) : Grows (rules.argumentRound found) := by
  unfold argumentRound
  infer_instance

instance arguments_grows : Grows rules.arguments := by
  unfold arguments
  infer_instance

instance operand_grows : Grows rules.operand := by
  unfold operand
  refine Grows.seq fun token => ?_
  split <;> infer_instance

instance assignment_grows (equals : Token) (target value : Expr) :
    Grows (assignment equals target value) := by
  unfold assignment
  split <;> infer_instance

instance extend_grows (left : Expr) (operator : Token) (level : Level) :
    Grows (rules.extend left operator level) := by
  unfold extend
  dsimp only
  split <;> infer_instance

instance operatorRound_grows (min : Level) (left : Expr) :
    Grows (rules.operatorRound min left) := by
  unfold operatorRound
  refine Grows.seq fun token => ?_
  split <;> infer_instance

instance expressionAt_grows (min : Level) : Grows (rules.expressionAt min) := by
  unfold expressionAt
  infer_instance

instance expressionStatement_grows : Grows rules.expressionStatement := by
  unfold expressionStatement
  infer_instance

instance printStatement_grows : Grows rules.printStatement := by
  unfold printStatement
  infer_instance

instance returnStatement_grows (keyword : Token) : Grows (rules.returnStatement keyword) := by
  unfold returnStatement
  infer_instance

instance whileStatement_grows : Grows rules.whileStatement := by
  unfold whileStatement
  infer_instance

instance ifStatement_grows : Grows rules.ifStatement := by
  unfold ifStatement
  infer_instance

instance initializer_grows : Grows rules.initializer := by
  unfold initializer
  infer_instance

instance varDeclaration_grows : Grows rules.varDeclaration := by
  unfold varDeclaration
  infer_instance

instance forInitializer_grows : Grows rules.forInitializer := by
  unfold forInitializer
  infer_instance

instance forStatement_grows : Grows rules.forStatement := by
  have final (first : Option Stmt) (condition : Expr) (last : Option Expr) : Grows (do
      let _ ← Rule.expect (.symbol .rightParen) .forClose
      return forLoop first condition last (← rules.statement)) := inferInstance
  have rest (first : Option Stmt) (condition : Expr) : Grows (do
      let _ ← Rule.expect (.symbol .semicolon) .loopConditionEnd
      let last ← do
        if ← Rule.check (.symbol .rightParen) then pure none
        else some <$> rules.expression .lowest
      let _ ← Rule.expect (.symbol .rightParen) .forClose
      return forLoop first condition last (← rules.statement)) := inferInstance
  unfold forStatement
  infer_instance

instance armRound_grows (found : Arms) : Grows (rules.armRound found) := by
  unfold armRound
  infer_instance

instance armChain_grows (hidden keyword : Token) :
    ∀ (arms : List (Expr × Stmt)) (chain : Option Stmt), Grows (armChain hidden keyword arms chain)
  | [], chain => Grows.pure chain
  | (pattern, action) :: rest, chain => by
      have inner (id : NodeId) := armChain_grows hidden keyword rest
        (some (.branch (armTest id hidden keyword pattern) action chain))
      unfold armChain
      infer_instance

instance switchStatement_grows (keyword : Token) : Grows (rules.switchStatement keyword) := by
  unfold switchStatement
  refine Grows.seq fun _ => Grows.seq fun subject => ?_
  infer_instance

instance statementRule_grows : Grows rules.statementRule := by
  unfold statementRule
  refine Grows.seq fun token => ?_
  split <;> infer_instance

instance field_grows (explicit : Bool) : Grows (rules.field explicit) := by
  unfold field
  infer_instance

instance memberRound_grows (found : Members) : Grows (rules.memberRound found) := by
  unfold memberRound
  infer_instance

instance classDeclaration_grows : Grows rules.classDeclaration := by
  unfold classDeclaration
  infer_instance

instance functionDeclaration_grows : Grows rules.functionDeclaration := by
  unfold functionDeclaration
  infer_instance

instance declarationOrStatement_grows : Grows rules.declarationOrStatement := by
  unfold declarationOrStatement
  infer_instance

instance declarationRule_grows : Grows rules.declarationRule := by
  unfold declarationRule
  infer_instance

end Rules

instance rulesAt_growing : ∀ depth : Nat, (rulesAt depth).Growing
  | 0 => ⟨fun _ => Grows.exhausted, Grows.exhausted, Grows.exhausted⟩
  | depth + 1 =>
      have := rulesAt_growing depth
      ⟨(rulesAt depth).expressionAt_grows, (rulesAt depth).statementRule_grows,
        (rulesAt depth).declarationRule_grows⟩

theorem programRound_eq (depth : Nat) (found : List Stmt) : programRound depth found = (do
    if ← Rule.atEnd then
      return .finish found.reverse
    else
      declaration depth >>= Rules.onward found) :=
  rfl

instance programRound_grows (depth : Nat) (found : List Stmt) : Grows (programRound depth found) := by
  have : Grows (declaration depth) := (rulesAt_growing depth).declaration
  rw [programRound_eq]
  infer_instance

instance program_grows : Grows program where
  keeps c := (Grows.iterate c.depth []).keeps c

end Lox.Grammar
