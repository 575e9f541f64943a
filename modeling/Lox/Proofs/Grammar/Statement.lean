import Lox.Proofs.Grammar.Expression

set_option autoImplicit false

/-! Statements and declarations that are read are regular, and their nodes have numbers of their own.
What is written out of a loop with clauses or of a switch keeps the numbers of its parts; each
comparison of a switch gets a new one. -/

namespace Lox.Grammar.Rules

variable {told : Prop} {rules : Rules} (promising : rules.Promising told) {start : Nat}
include promising

theorem expressionStatement_promises :
    Promises told start rules.expressionStatement (Fits.bare told start) := by
  unfold expressionStatement
  refine (promising.expression _ _).bind fun last value _ read => ?_
  refine (Rule.expect_promises _ _).bind_still fun _ _ => Promises.pure ?_
  exact read.imp fun regular => ⟨regular, rfl⟩

theorem printStatement_promises : Promises told start rules.printStatement (Fits.bare told start) := by
  unfold printStatement
  refine (promising.expression _ _).bind fun last value _ read => ?_
  refine (Rule.expect_promises _ _).bind_still fun _ _ => Promises.pure ?_
  exact read.imp fun regular => ⟨regular, rfl⟩

theorem returnStatement_promises (keyword : Token) :
    Promises told start (rules.returnStatement keyword) (Fits.bare told start) := by
  have rest (middle : Nat) (value : Option Expr) (fit : Fits.optional told start middle value) :
      Promises told middle (do
        let _ ← Rule.expect (.symbol .semicolon) .returnEnd
        return Stmt.ret keyword value) (Fits.bare told start) := by
    refine (Rule.expect_promises _ _).bind_still fun _ _ => Promises.pure ?_
    cases value with
    | none => exact fit.imp fun _ => ⟨trivial, rfl⟩
    | some e => exact fit.imp fun regular => ⟨regular e rfl, rfl⟩
  unfold returnStatement
  refine (Rule.check_promises _).bind_still fun bare _ => ?_
  dsimp only
  split
  · exact rest start none (Fits.optional_none start)
  · exact ((promising.expression _ _).fmap _ fun _ _ _ => Fits.optional_some).bind
      fun middle value _ => rest middle value

theorem whileStatement_promises : Promises told start rules.whileStatement (Fits.bare told start) := by
  unfold whileStatement
  refine (Rule.expect_promises _ _).bind_still fun _ _ => ?_
  refine (promising.expression _ _).bind fun _ condition _ read => ?_
  refine (Rule.expect_promises _ _).bind_still fun _ _ => ?_
  refine (promising.statement _).map _ fun last body _ fit => ?_
  exact read.append (Fits.bare_scoped (fit.imp And.left)) fun regular own =>
    ⟨⟨regular, own⟩, own.2⟩

theorem ifStatement_promises : Promises told start rules.ifStatement (Fits.bare told start) := by
  unfold ifStatement
  refine (Rule.expect_promises _ _).bind_still fun _ _ => ?_
  refine (promising.expression _ _).bind fun _ condition _ read => ?_
  refine (Rule.expect_promises _ _).bind_still fun _ _ => ?_
  refine (promising.statement _).bind fun _ thenBranch _ chosen => ?_
  have head := read.append (Fits.bare_scoped (chosen.imp And.left)) And.intro
  refine (Rule.accept_promises _).bind_still fun more _ => ?_
  split
  · refine (promising.statement _).map _ fun last elseBranch _ other => ?_
    refine head.append (Fits.bare_scoped (other.imp And.left)) fun both last =>
      ⟨⟨both.1, both.2, last⟩, ?_⟩
    rw [Stmt.declared, last.2, both.2.2, List.append_nil]
  · exact Promises.pure (head.imp fun both => ⟨both, both.2.2⟩)

theorem initializer_promises : Promises told start rules.initializer (Fits.optional told start) := by
  unfold initializer
  refine (Rule.accept_promises _).bind_still fun given _ => ?_
  split
  · exact (promising.expression _ _).fmap _ fun last value _ read => Fits.optional_some read
  · exact Promises.pure (Fits.optional_none start)

theorem varDeclaration_promises : Promises told start rules.varDeclaration (Fits.stmt told start) := by
  unfold varDeclaration
  refine (Rule.expect_promises _ _).bind_still fun name read => ?_
  have named (isTold : told) := (read.1 isTold).name (Token.kind_of_name read.2)
  apply Rule.fresh_bind_promises
  refine (initializer_promises promising).bind fun last initial _ fit => ?_
  refine (Rule.expect_promises _ _).bind_still fun _ _ => Promises.pure ?_
  cases initial with
  | none => exact (Fits.single named).widen fit.up
  | some value => exact (Fits.single named).append fit fun named regular => ⟨named, regular value rfl⟩

theorem forInitializer_promises : Promises told start rules.forInitializer fun last found =>
    Fits told (∀ s ∈ found, Regular.stmt s) start last (found.elim [] Nodes.stmt) := by
  unfold forInitializer
  refine (Rule.accept_promises _).bind_still fun missing _ => ?_
  split
  · exact Promises.pure (Fits.leaf (fun _ impossible => nomatch impossible) (Nat.le_refl start))
  · refine (Rule.accept_promises _).bind_still fun declared _ => ?_
    split
    · refine (varDeclaration_promises promising).fmap _ fun _ _ _ fit => ?_
      exact fit.imp fun regular _ same => Option.some.inj same ▸ regular
    · refine (expressionStatement_promises promising).fmap _ fun _ _ _ fit => ?_
      exact fit.imp fun regular _ same => Option.some.inj same ▸ regular.1

def forBody (last : Option Expr) (body : Stmt) : Stmt :=
  match last with
  | some step => .block [body, .expression step]
  | none => body.scoped

omit promising in
/-- The last clause of a loop is read before the body, but follows it in what is written out. -/
theorem forBody_fit {two three high : Nat} {last : Option Expr} {body : Stmt}
    (after : Fits.optional told two three last) (inner : Fits.bare told three high body) :
    Fits.bare told two high (forBody last body) := by
  cases last with
  | none =>
      exact after.append (Fits.bare_scoped (inner.imp And.left)) fun _ both => both
  | some step =>
      refine (after.append inner fun regular both => ?_).perm ?_
      · exact ⟨⟨both.1, regular step rfl, trivial⟩, rfl⟩
      · change (Nodes.stmt body ++ (Nodes.expr step ++ [])).Perm _
        rw [List.append_nil]
        exact List.perm_append_comm

omit promising in
theorem forLoop_fit {one two three high : Nat} {first : Option Stmt} {condition : Expr}
    {last : Option Expr} {body : Stmt}
    (before : Fits told (∀ s ∈ first, Regular.stmt s) start one (first.elim [] Nodes.stmt))
    (tested : Fits.expr told one two condition) (after : Fits.optional told two three last)
    (inner : Fits.bare told three high body) :
    Fits.bare told start high (forLoop first condition last body) := by
  have loop := tested.append (forBody_fit after inner) And.intro
  cases first with
  | none => exact before.append loop fun _ both => ⟨both, both.2.2⟩
  | some s =>
      refine (before.append loop fun regular both => ?_).congr ?_
      · exact ⟨⟨regular s rfl, both, trivial⟩, rfl⟩
      · change Nodes.stmt s ++ (_ ++ []) = _
        rw [List.append_nil]
        rfl

theorem forStatement_promises : Promises told start rules.forStatement (Fits.bare told start) := by
  unfold forStatement
  refine (Rule.expect_promises _ _).bind_still fun _ _ => ?_
  refine (forInitializer_promises promising).bind fun one first _ before => ?_
  have rest (two : Nat) (condition : Expr) (tested : Fits.expr told one two condition) :
      Promises told two (do
        let _ ← Rule.expect (.symbol .semicolon) .loopConditionEnd
        let last ← do
          if ← Rule.check (.symbol .rightParen) then pure none
          else some <$> rules.expression .lowest
        let _ ← Rule.expect (.symbol .rightParen) .forClose
        return forLoop first condition last (← rules.statement)) (Fits.bare told start) := by
    refine (Rule.expect_promises _ _).bind_still fun _ _ => ?_
    have final (three : Nat) (last : Option Expr) (after : Fits.optional told two three last) :
        Promises told three (do
          let _ ← Rule.expect (.symbol .rightParen) .forClose
          return forLoop first condition last (← rules.statement)) (Fits.bare told start) := by
      refine (Rule.expect_promises _ _).bind_still fun _ _ => ?_
      exact (promising.statement _).map _ fun _ _ _ => forLoop_fit before tested after
    refine (Rule.check_promises _).bind_still fun closed _ => ?_
    dsimp only
    split
    · exact final two none (Fits.optional_none two)
    · exact ((promising.expression _ _).fmap _ fun _ _ _ => Fits.optional_some).bind
        fun three last _ => final three last
  refine (Rule.check_promises _).bind_still fun missing _ => ?_
  dsimp only
  split
  · exact rest one _ (Fits.leaf trivial (Nat.le_refl one))
  · exact (promising.expression _ _).bind fun two condition _ => rest two condition

def armNodes (arms : List (Expr × Stmt)) : List NodeId :=
  arms.flatMap fun arm => Nodes.expr arm.1 ++ Nodes.stmt arm.2

/-- The arms of a switch, and what is done if none of them fits. -/
structure RegularArms (arms : List (Expr × Stmt)) (rest : Option Stmt) : Prop where
  arms : ∀ arm ∈ arms, Regular.expr arm.1 ∧ Regular.stmt arm.2 ∧ arm.2.declared = []
  rest : ∀ s ∈ rest, Regular.stmt s ∧ s.declared = []

def fitArms (told : Prop) (low high : Nat) (arms : List (Expr × Stmt)) (rest : Option Stmt) : Prop :=
  Fits told (RegularArms arms rest) low high (armNodes arms ++ rest.elim [] Nodes.stmt)

theorem armRound_promises (middle : Nat) (found : Arms)
    (fit : fitArms told start middle found.arms found.default) :
    Promises told middle (rules.armRound found)
      (Rule.Kept (fun last found => fitArms told start last found.arms found.default)
        fun last found => fitArms told start last found.arms found.default) := by
  unfold armRound
  refine (Rule.check_promises _).bind_still fun closed _ => ?_
  refine Rule.atEnd_promises.bind_still fun atEnd _ => ?_
  split
  · exact Promises.pure fit
  · refine Rule.peek_promises.bind_still fun first _ => ?_
    refine (promising.expression _ _).bind fun one pattern up read => ?_
    refine (Rule.expect_promises _ _).bind_still fun _ _ => ?_
    refine (promising.statement _).bind fun last action _ acts => ?_
    split
    · split
      · exact Rule.failAt_promises _ _
      · next missing =>
          have none : found.default = none := by
            cases given : found.default with
            | none => rfl
            | some s =>
                rw [given] at missing
                exact absurd rfl missing
          rw [none] at fit
          refine Promises.pure (((fit.widen up).append acts fun regular both => ?_).congr ?_)
          · exact ⟨regular.arms, fun s same => Option.some.inj same ▸ both⟩
          · change armNodes found.arms ++ Nodes.stmt action = _
            rw [Option.elim_none, List.append_nil]
    · have own := read.append acts And.intro
      refine Promises.pure ((fit.append own fun regular both => ?_).perm ?_)
      · refine ⟨fun arm member => ?_, regular.rest⟩
        cases member with
        | head => exact both
        | tail _ earlier => exact regular.arms arm earlier
      · change (((Nodes.expr pattern ++ Nodes.stmt action) ++ armNodes found.arms) ++ _).Perm _
        rw [List.append_assoc]
        exact List.perm_append_comm

omit promising in
/-- The hidden variable of a switch cannot be taken for the receiver. -/
theorem hiddenName_ne (id : NodeId) (keyword : Token) :
    (hiddenName id keyword).lexeme ≠ thisName := by
  intro same
  have letters := congrArg String.toList same
  rw [hiddenName, String.toList_append] at letters
  cases (List.cons.inj letters).1

omit promising in
theorem armChain_promises (hidden keyword : Token) (named : hidden.lexeme ≠ thisName) :
    ∀ (arms : List (Expr × Stmt)) (rest : Option Stmt) (middle : Nat),
      fitArms told start middle arms rest →
        Promises told middle (armChain hidden keyword arms rest)
          fun last chain => fitArms told start last [] chain
  | [], rest, middle, fit => Promises.pure fit
  | (pattern, action) :: arms, rest, middle, fit => by
      apply Rule.fresh_bind_promises
      apply armChain_promises hidden keyword named arms _ (middle + 1)
      refine (fit.append (Fits.single fun _ => named) fun regular own => ?_).perm ?_
      · have first := regular.arms _ List.mem_cons_self
        refine ⟨fun arm member => regular.arms arm (List.mem_cons_of_mem _ member), ?_⟩
        intro s same
        cases same
        cases rest with
        | none => exact ⟨⟨⟨own, first.1⟩, first.2⟩, first.2.2⟩
        | some s =>
            have last := regular.rest s rfl
            refine ⟨⟨⟨own, first.1⟩, first.2, last⟩, ?_⟩
            rw [Stmt.declared, first.2.2, last.2, List.append_nil]
      · refine List.perm_iff_count.mpr fun id => ?_
        cases rest <;>
          simp only [armNodes, armTest, List.flatMap_cons, Option.elim_some, Option.elim_none,
            Nodes.stmt, Nodes.expr, List.count_append, List.count_nil] <;>
          omega

theorem switchStatement_promises (keyword : Token) :
    Promises told start (rules.switchStatement keyword) (Fits.bare told start) := by
  unfold switchStatement
  refine (Rule.expect_promises _ _).bind_still fun _ _ => ?_
  refine (promising.expression _ _).bind fun one subject _ read => ?_
  refine (Rule.expect_promises _ _).bind_still fun _ _ => ?_
  apply Rule.fresh_bind_promises
  have head := read.append (Fits.single fun _ => hiddenName_ne one keyword) fun regular own =>
    And.intro own regular
  refine (Rule.expect_promises _ _).bind_still fun _ _ => ?_
  have none : fitArms told (one + 1) (one + 1) [] none :=
    Fits.leaf ⟨fun _ impossible => (nomatch impossible), fun _ impossible => (nomatch impossible)⟩
      (Nat.le_refl _)
  refine (Rule.iterate_promises (armRound_promises promising) rules.bound (one + 1) ⟨[], .none⟩
    none).bind fun two found _ arms => ?_
  refine (Rule.expect_promises _ _).bind_still fun _ _ => ?_
  apply (armChain_promises _ keyword (hiddenName_ne one keyword) _ _ two arms).map _
  intro last chain _ fit
  refine (head.append fit fun both regular => ?_).perm ?_
  · refine ⟨⟨both, ?_⟩, rfl⟩
    cases chain with
    | none => exact trivial
    | some s => exact ⟨(regular.rest s rfl).1, trivial⟩
  · refine List.perm_iff_count.mpr fun id => ?_
    cases chain <;>
      simp only [armNodes, Option.toList_none, Option.toList_some, Option.elim_some,
        Option.elim_none, List.flatMap_nil, Nodes.stmt, Nodes.stmts, List.count_append,
        List.count_nil, List.count_cons] <;>
      omega

theorem statementRule_promises : Promises told start rules.statementRule (Fits.bare told start) := by
  unfold statementRule
  refine Rule.peek_promises.bind_still fun token _ => ?_
  split
  · exact Rule.advance_promises.bind_still fun _ _ => forStatement_promises promising
  · exact Rule.advance_promises.bind_still fun _ _ => ifStatement_promises promising
  · refine Rule.advance_promises.bind_still fun _ _ => ?_
    exact (block_promises promising).fmap _ fun _ _ _ fit => fit.imp fun regular => ⟨regular, rfl⟩
  · exact Rule.advance_promises.bind_still fun _ _ => switchStatement_promises promising token
  · exact Rule.advance_promises.bind_still fun _ _ => printStatement_promises promising
  · exact Rule.advance_promises.bind_still fun _ _ => returnStatement_promises promising token
  · exact Rule.advance_promises.bind_still fun _ _ => whileStatement_promises promising
  · exact expressionStatement_promises promising

theorem field_promises (explicit : Bool) :
    Promises told start (rules.field explicit) fun last decl => Fits.fields told start last [decl] := by
  unfold field
  refine (Rule.expect_promises _ _).bind_still fun name _ => ?_
  refine (initializer_promises promising).bind fun last initial _ fit => ?_
  refine (Rule.expect_promises _ _).bind_still fun _ _ => Promises.pure ?_
  cases initial with
  | none => exact fit.imp fun _ => trivial
  | some value =>
      refine (fit.imp fun regular => ?_).congr (List.append_nil _)
      exact ⟨regular value rfl, trivial⟩

/-- The members of a class read so far, fields first. -/
def fitMembers (told : Prop) (low high : Nat) (found : Members) : Prop :=
  Fits told (Regular.fields found.fields.reverse ∧ Regular.functions found.methods.reverse) low high
    (Nodes.fields found.fields.reverse ++ Nodes.functions found.methods.reverse)

theorem memberRound_promises (middle : Nat) (found : Members)
    (fit : fitMembers told start middle found) :
    Promises told middle (rules.memberRound found)
      (Rule.Kept (fitMembers told start) (fitMembers told start)) := by
  unfold memberRound
  refine (Rule.check_promises _).bind_still fun closed _ => ?_
  refine Rule.atEnd_promises.bind_still fun atEnd _ => ?_
  split
  · exact Promises.pure fit
  · refine (Rule.accept_promises _).bind_still fun explicit _ => ?_
    refine (Rule.check_promises _).bind_still fun isNamed _ => ?_
    refine (Rule.checkSecond_promises _).bind_still fun isMethod _ => ?_
    split
    · refine Rule.peek_promises.bind_still fun name _ => ?_
      refine Rule.advance_promises.bind_still fun _ _ => ?_
      refine (functionBody_promises promising _ _).map _ fun last method _ own => ?_
      refine (fit.append own fun regular own => And.intro regular.1 ?_).congr ?_
      · rw [List.reverse_cons]
        exact Regular.functions_append regular.2
          (show Regular.functions [method] from ⟨own, trivial⟩)
      · simp only [List.reverse_cons, Nodes.functions_append, Nodes.functions, List.append_nil,
          List.append_assoc]
    · refine (field_promises promising explicit).map _ fun last field _ own => ?_
      refine (fit.append own fun regular own => And.intro ?_ regular.2).perm ?_
      · rw [List.reverse_cons]
        exact Regular.fields_append regular.1 own
      · rw [List.reverse_cons, Nodes.fields_append, List.append_assoc, List.append_assoc]
        exact List.Perm.append_left _ List.perm_append_comm

theorem classDeclaration_promises : Promises told start rules.classDeclaration (Fits.stmt told start) := by
  unfold classDeclaration
  refine (Rule.expect_promises _ _).bind_still fun name read => ?_
  have named (isTold : told) := (read.1 isTold).name (Token.kind_of_name read.2)
  apply Rule.fresh_bind_promises
  apply Rule.fresh_bind_promises
  refine (Rule.expect_promises _ _).bind_still fun _ _ => ?_
  have none : fitMembers told (start + 1 + 1) (start + 1 + 1) ⟨[], []⟩ :=
    Fits.leaf ⟨trivial, trivial⟩ (Nat.le_refl _)
  refine (Rule.iterate_promises (memberRound_promises promising) rules.bound _ ⟨[], []⟩
    none).bind fun last found _ members => ?_
  refine (Rule.expect_promises _ _).bind_still fun _ _ => Promises.pure ?_
  exact (Fits.single named).append ((Fits.single fun _ => trivial).append members fun _ both => both)
    fun named both => ⟨named, both⟩

theorem functionDeclaration_promises :
    Promises told start rules.functionDeclaration (Fits.stmt told start) := by
  unfold functionDeclaration
  refine (Rule.expect_promises _ _).bind_still fun name read => ?_
  have named (isTold : told) := (read.1 isTold).name (Token.kind_of_name read.2)
  apply Rule.fresh_bind_promises
  refine (functionBody_promises promising _ _).map _ fun last decl _ fit => ?_
  exact (Fits.single named).append fit fun named regular => ⟨named, regular⟩

theorem declarationOrStatement_promises :
    Promises told start rules.declarationOrStatement (Fits.stmt told start) := by
  unfold declarationOrStatement
  refine (Rule.accept_promises _).bind_still fun isVar _ => ?_
  split
  · exact varDeclaration_promises promising
  refine (Rule.accept_promises _).bind_still fun isClass _ => ?_
  split
  · exact classDeclaration_promises promising
  refine (Rule.check_promises _).bind_still fun isFun _ => ?_
  refine (Rule.checkSecond_promises _).bind_still fun isNamed _ => ?_
  split
  · exact Rule.advance_promises.bind_still fun _ _ => functionDeclaration_promises promising
  · exact (promising.statement _).imp fun _ _ _ fit => fit.imp And.left

theorem declarationRule_promises : Promises told start rules.declarationRule fun last found =>
    ∀ s ∈ found, Fits.stmt told start last s :=
  recover_promises (declarationOrStatement_promises promising)

end Lox.Grammar.Rules
