import Lox.Proofs.Derivation.Longer

set_option autoImplicit false

/-! The rules of the grammar in longer rows of tokens: one instance for each rule, put together from those
of its parts. -/

namespace Lox.Grammar

/-- Rules that accept nothing at the end of the input, and no statement that is the word `fun` alone. -/
class Rules.Needing (rules : Rules) : Prop where
  expression : ∀ min : Level, Refuses (rules.expression min)
  statement : Refuses rules.statement
  loneFun : ∀ {stop token : Token} {id : NodeId} {s : Stmt} {q : Place},
    stop.isEnd = true → token.terminal? = some (.keyword .funWord) →
      ¬Accepts stop rules.statement ⟨[token], id⟩ s q

/-- Rules that do in a longer row of tokens what other rules do. -/
class Rules.Persist (more : List Token) (rules longer : Rules) : Prop where
  bound : rules.bound ≤ longer.bound
  expression : ∀ min : Level, Persists more false (rules.expression min) (longer.expression min)
  statement : Persists more true rules.statement longer.statement
  declaration : Persists more true rules.declaration longer.declaration

namespace Rules

attribute [instance] Needing.expression Needing.statement Persist.expression

instance persist_parameterRound (more : List Token) (found : List Param) :
    Persists more false (parameterRound found) (parameterRound found) := by
  unfold parameterRound
  infer_instance

section

variable (rules : Rules) [rules.Needing]

instance expressionStatement_refuses : Refuses rules.expressionStatement := by
  unfold expressionStatement
  infer_instance

instance printStatement_refuses : Refuses rules.printStatement := by
  unfold printStatement
  infer_instance

instance functionBody_refuses (name : Option Token) (kind : FunctionKind) :
    Refuses (rules.functionBody name kind) := by
  unfold functionBody parameters
  infer_instance

instance varDeclaration_refuses : Refuses rules.varDeclaration := by
  unfold varDeclaration
  infer_instance

instance whileStatement_refuses : Refuses rules.whileStatement := by
  unfold whileStatement
  infer_instance

instance forStatement_refuses : Refuses rules.forStatement := by
  unfold forStatement
  infer_instance

instance ifStatement_refuses : Refuses rules.ifStatement := by
  unfold ifStatement
  infer_instance

instance switchStatement_refuses (keyword : Token) : Refuses (rules.switchStatement keyword) := by
  unfold switchStatement
  infer_instance

instance block_refuses : Refuses rules.block := by
  constructor
  intro c ends none body after done
  obtain ⟨found, middle, rounds, done⟩ := Outcome.ok_of_bind done
  have still : middle = c := by
    have ended : rules.blockRound [] c = .ok (.finish []) c := by
      obtain ⟨pending, stop, nextId, recorded⟩ := c
      cases none
      rfl
    cases bound : rules.bound with
    | zero =>
      rw [bound] at rounds
      cases rounds
    | succ bound' =>
      rw [bound, Rule.iterate_of_finish ended] at rounds
      injection rounds with _ same
      exact same.symm
  obtain ⟨right, last, closes, -⟩ := Outcome.ok_of_bind done
  rw [still] at closes
  exact Refuses.refuses ends none right last closes

instance classDeclaration_refuses : Refuses rules.classDeclaration := by
  unfold classDeclaration
  infer_instance

instance functionDeclaration_refuses : Refuses rules.functionDeclaration := by
  unfold functionDeclaration
  infer_instance

instance returnStatement_refuses (keyword : Token) : Refuses (rules.returnStatement keyword) := by
  unfold returnStatement
  infer_instance

end

instance onward_persists (more : List Token) (found : List Stmt) (s : Option Stmt) :
    Persists more false (onward found s) (onward found s) := by
  cases s with
  | none => exact Persists.pure _
  | some s => exact Persists.pure _

section

variable {more : List Token} {closed : Bool} (rules longer : Rules) [rules.Growing]
  [longer.Growing] [rules.Needing] [persist : Persist more rules longer]

instance statement_persists : Persists more closed rules.statement longer.statement :=
  persist.statement.weaken

instance declaration_persists : Persists more closed rules.declaration longer.declaration :=
  persist.declaration.weaken

instance blockRound_persists (found : List Stmt) :
    Persists more false (rules.blockRound found) (longer.blockRound found) := by
  rw [blockRound_eq, blockRound_eq]
  infer_instance

instance block_persists : Persists more closed rules.block longer.block := by
  have rounds := Persists.iterate more (rules.blockRound_persists longer) persist.bound []
  unfold block
  infer_instance

instance parameters_persists : Persists more false rules.parameters longer.parameters := by
  have rounds := Persists.iterate more (persist_parameterRound more) persist.bound []
  unfold parameters
  infer_instance

instance functionBody_persists (name : Option Token) (kind : FunctionKind) :
    Persists more closed (rules.functionBody name kind) (longer.functionBody name kind) := by
  unfold functionBody
  dsimp only
  infer_instance

instance argumentRound_persists (found : List Expr) :
    Persists more false (rules.argumentRound found) (longer.argumentRound found) := by
  unfold argumentRound
  infer_instance

instance arguments_persists : Persists more false rules.arguments longer.arguments := by
  have rounds := Persists.iterate more (rules.argumentRound_persists longer) persist.bound []
  unfold arguments
  infer_instance

instance operand_persists : Persists more false rules.operand longer.operand := by
  unfold operand
  refine Persists.seq fun token => ?_
  generalize token.kind = kind
  split <;> infer_instance

instance assignment_persists (equals : Token) (target value : Expr) :
    Persists more closed (assignment equals target value) (assignment equals target value) := by
  unfold assignment
  split <;> infer_instance

instance extend_persists (left : Expr) (operator : Token) (level : Level) :
    Persists more false (rules.extend left operator level) (longer.extend left operator level) := by
  unfold extend
  dsimp only
  split <;> infer_instance

instance operatorRound_persists (min : Level) (left : Expr) :
    Persists more false (rules.operatorRound min left) (longer.operatorRound min left) := by
  unfold operatorRound
  refine Persists.seq fun token => ?_
  split <;> infer_instance

instance expressionAt_persists (min : Level) :
    Persists more false (rules.expressionAt min) (longer.expressionAt min) := by
  have rounds := Persists.iterate more (rules.operatorRound_persists longer min) persist.bound
  unfold expressionAt
  infer_instance

instance expressionStatement_persists :
    Persists more closed rules.expressionStatement longer.expressionStatement := by
  unfold expressionStatement
  infer_instance

instance printStatement_persists :
    Persists more closed rules.printStatement longer.printStatement := by
  unfold printStatement
  infer_instance

instance returnStatement_persists (keyword : Token) :
    Persists more closed (rules.returnStatement keyword) (longer.returnStatement keyword) := by
  unfold returnStatement
  dsimp only
  infer_instance

instance whileStatement_persists :
    Persists more closed rules.whileStatement longer.whileStatement := by
  unfold whileStatement
  infer_instance

instance initializer_persists : Persists more false rules.initializer longer.initializer := by
  unfold initializer
  infer_instance

instance varDeclaration_persists :
    Persists more closed rules.varDeclaration longer.varDeclaration := by
  unfold varDeclaration
  infer_instance

instance forInitializer_persists :
    Persists more false rules.forInitializer longer.forInitializer := by
  unfold forInitializer
  infer_instance

instance forStatement_persists : Persists more closed rules.forStatement longer.forStatement := by
  have finish (first : Option Stmt) (condition : Expr) (last : Option Expr) : Persists more closed
      (do
        let _ ← Rule.expect (.symbol .rightParen) .forClose
        return forLoop first condition last (← rules.statement))
      (do
        let _ ← Rule.expect (.symbol .rightParen) .forClose
        return forLoop first condition last (← longer.statement)) := inferInstance
  have final (first : Option Stmt) (condition : Expr) (last : Option Expr) : Refuses
      (do
        let _ ← Rule.expect (.symbol .rightParen) .forClose
        return forLoop first condition last (← rules.statement)) := inferInstance
  have rest (first : Option Stmt) (condition : Expr) : Persists more closed
      (do
        let _ ← Rule.expect (.symbol .semicolon) .loopConditionEnd
        let last ← do
          if ← Rule.check (.symbol .rightParen) then pure none
          else some <$> rules.expression .lowest
        let _ ← Rule.expect (.symbol .rightParen) .forClose
        return forLoop first condition last (← rules.statement))
      (do
        let _ ← Rule.expect (.symbol .semicolon) .loopConditionEnd
        let last ← do
          if ← Rule.check (.symbol .rightParen) then pure none
          else some <$> longer.expression .lowest
        let _ ← Rule.expect (.symbol .rightParen) .forClose
        return forLoop first condition last (← longer.statement)) := inferInstance
  unfold forStatement
  dsimp only at *
  refine Persists.seq fun _ => Persists.seq_open (fun first => ?_) fun first => ?_
  · refine Persists.seq_open (fun isEmpty => ?_) fun isEmpty => ?_
    · split
      · exact Persists.seq (rest first)
      · exact Persists.seq_open (rest first) fun condition => inferInstance
    · infer_instance
  · infer_instance

instance armRound_persists (found : Arms) :
    Persists more false (rules.armRound found) (longer.armRound found) := by
  unfold armRound
  refine Persists.seq fun _ => ?_
  refine Persists.seq fun _ => ?_
  split
  · infer_instance
  · refine Persists.seq fun start => ?_
    refine Persists.seq fun pattern => ?_
    infer_instance

omit [rules.Growing] [longer.Growing] [rules.Needing] persist in
instance armChain_persists (hidden keyword : Token) :
    ∀ (arms : List (Expr × Stmt)) (chain : Option Stmt),
      Persists more closed (armChain hidden keyword arms chain) (armChain hidden keyword arms chain)
  | [], chain => Persists.pure chain
  | (pattern, action) :: rest, chain => by
      have inner (id : NodeId) := armChain_persists hidden keyword rest
        (some (.branch (armTest id hidden keyword pattern) action chain))
      unfold armChain
      infer_instance

instance switchStatement_persists (keyword : Token) :
    Persists more closed (rules.switchStatement keyword) (longer.switchStatement keyword) := by
  have rounds := Persists.iterate more (rules.armRound_persists longer) persist.bound
  unfold switchStatement
  dsimp only
  infer_instance

instance field_persists (explicit : Bool) :
    Persists more closed (rules.field explicit) (longer.field explicit) := by
  unfold field
  infer_instance

omit [longer.Growing] [rules.Needing] persist in
/-- A name alone is no field. -/
theorem lone_field {stop token : Token} {id : NodeId} {decl : FieldDecl} {q : Place}
    (explicit : Bool) : ¬Accepts stop (rules.field explicit) ⟨[token], id⟩ decl q := by
  intro done
  unfold field initializer at done
  obtain ⟨name, p, named, done⟩ := Accepts.bind_iff.mp done
  obtain ⟨initial, r, value, done⟩ := Accepts.bind_iff.mp done
  obtain ⟨semicolon, u, closes, -⟩ := Accepts.bind_iff.mp done
  have one := (Accepts.expect_iff.mp named).length
  have two := (Accepts.expect_iff.mp closes).length
  rcases Accepts.accept_iff.mp value with ⟨equals, v, equal, -⟩ | ⟨-, absent⟩
  · have three := equal.length
    simp only [List.length_singleton] at one
    omega
  · obtain ⟨-, rfl⟩ := Accepts.pure_iff.mp absent
    simp only [List.length_singleton] at one
    omega

instance memberRound_persists (found : Members) :
    Persists more false (rules.memberRound found) (longer.memberRound found) := by
  unfold memberRound
  refine Persists.seq fun closes => Persists.seq fun isEnd => ?_
  split
  · infer_instance
  · refine Persists.seq fun explicit => ?_
    refine Persists.look_ahead (fun _ _ => inferInstance) (fun _ => by simp) ?_ (.inl rfl)
    intro stop token id next q _ _ done
    simp only [Bool.and_false, Bool.false_eq_true, if_false] at done
    obtain ⟨decl, r, read, -⟩ := Accepts.bind_iff.mp done
    exact rules.lone_field explicit read

instance classDeclaration_persists :
    Persists more closed rules.classDeclaration longer.classDeclaration := by
  have rounds := Persists.iterate more (rules.memberRound_persists longer) persist.bound
  unfold classDeclaration
  infer_instance

instance functionDeclaration_persists :
    Persists more closed rules.functionDeclaration longer.functionDeclaration := by
  unfold functionDeclaration
  infer_instance

variable [Apart more]

instance ifStatement_persists : Persists more true rules.ifStatement longer.ifStatement := by
  unfold ifStatement
  infer_instance

instance statementRule_persists : Persists more true rules.statementRule longer.statementRule := by
  unfold statementRule
  refine Persists.seq_open (fun token => ?_) fun token => ?_
  · split <;> infer_instance
  · split <;> infer_instance

instance declarationOrStatement_persists :
    Persists more true rules.declarationOrStatement longer.declarationOrStatement := by
  have stated : Refuses (do
      if (← Rule.check (.keyword .funWord)) && (← Rule.checkSecond .name) then
        Rule.advance
        rules.functionDeclaration
      else
        rules.statement) :=
    Refuses.look_ahead inferInstance
  unfold declarationOrStatement
  refine Persists.seq_open (fun isVar => ?_) fun isVar => inferInstance
  refine @Persists.ite _ _ _ _ _ _ _ _ _ inferInstance ?_
  refine Persists.seq_open (fun isClass => ?_) fun isClass => inferInstance
  refine @Persists.ite _ _ _ _ _ _ _ _ _ inferInstance ?_
  refine Persists.look_ahead (fun _ _ => inferInstance) (fun _ => by simp) ?_ (.inr inferInstance)
  intro stop token id s q ends isFunction done
  exact Needing.loneFun ends isFunction done

instance declarationRule_persists :
    Persists more true rules.declarationRule longer.declarationRule := by
  unfold declarationRule
  infer_instance

end

end Rules

end Lox.Grammar
