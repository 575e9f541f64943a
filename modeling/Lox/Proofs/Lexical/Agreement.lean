import Lox.Proofs.Lexical.Statements

set_option autoImplicit false

/-! Slots and names agree. From a machine and a memory that correspond, the interpreter with its slots and
the one that goes by names alone end alike: by induction on the code, and on the bound for the functions
that it calls. -/

namespace Lox.Lexical

variable {ctx : Lox.Context} {plain : Context}

set_option linter.unusedSectionVars false

theorem fields_lockstep {w : World} {m : Machine} {n : Memory} {sight : Sight}
    {thisSlot : Option Slot} (shared : Shared ctx.bindings w m n) :
    ∀ (decls : List FieldDecl) {table : Table String Value}, Initialized.fields decls = [] →
      w.BacksTable ctx.bindings thisSlot table →
      Lockstep ctx.bindings [] w m n (Exec.fields ctx table decls)
        (Run.fields plain sight table decls)
        fun more a b => b = a ∧ more.BacksTable ctx.bindings thisSlot a
  | [], _, _, backs => Lockstep.pure shared ⟨rfl, backs⟩
  | .mk _ none :: rest, _, noInitial, backs =>
      fields_lockstep shared rest noInitial (backs.insert _ fun _ impossible => nomatch impossible)
  | .mk _ (some _) :: _, _, impossible, _ => nomatch impossible

/-- A class sees itself in its methods, and is stored where its name leads. -/
theorem class_lockstep {id thisId : NodeId} {name : Token} {fieldDecls : List FieldDecl}
    {methodDecls : List FunctionDecl} {path : Path} {sight : Sight} {w : World} {m : Machine}
    {n : Memory} (holds : path.holdsStatements = true)
    (ready : Ready ctx.bindings w m n path sight
      (Sites.stmt path (.class id name thisId fieldDecls methodDecls)) (ctx.bindings.slotsOf [id]))
    (regular : Regular.functions methodDecls) (noFields : Initialized.fields fieldDecls = [])
    (noMethods : Initialized.functions methodDecls = []) :
    Lockstep ctx.bindings (ctx.bindings.slotsOf [id]) w m n
      (Exec.stmt ctx (.class id name thisId fieldDecls methodDecls))
      (Run.stmt plain sight (.class id name thisId fieldDecls methodDecls))
      (Onward ctx.bindings (path.past (.class id name thisId fieldDecls methodDecls))
        m.environment.current) := by
  have bound := ready.placed.bound _ List.mem_cons_self
  have isOwn := slotsOf_declaration path name bound
  have inside := ready.placed.tail fun slot member => isOwn ▸ member
  have methods := inside.part (((List.sublist_append_right _ _).cons_cons _).trans
    (List.sublist_append_right _ _))
  have receives : (ctx.bindings.slot? thisId).isSome = true :=
    methods.bound _ List.mem_cons_self
  obtain ⟨slot, thisSlot⟩ := Option.isSome_iff_exists.mp receives
  apply (declare_lockstep ready backs_nil).bind_still
  intro _ inner one machineOne memoryOne declared sees
  have own := sees _ (path.adds_own id name)
  have noMember : one.BacksTable ctx.bindings (some slot) Table.empty :=
    fun _ _ impossible => nomatch impossible
  apply (fields_lockstep declared.shared fieldDecls noFields noMember).bind
  intro members plainMembers two machineTwo memoryTwo second fieldsAlike
  rw [fieldsAlike.1]
  apply Lockstep.capture_bind
  rw [second.current, declared.current]
  have there := ((methods.le_nil declared.le).move own).le_nil second.le
  refine (addMethods_lockstep thisSlot methodDecls two machineTwo memoryTwo members
    second.shared there regular noMethods fieldsAlike.2).bind
    fun table plainTable three machineThree memoryThree third alike => ?_
  rw [alike.1]
  have added : Step ctx.bindings [] three machineThree three
      (machineThree.addClass ⟨name.lexeme, table, ctx.bindings.slot? thisId⟩).2
      (memoryThree.addClass ⟨name.lexeme, table⟩).2 := by
    refine Step.still (World.Le.refl three) (third.shared.addClass _ _ _ ?_) rfl rfl
    rw [thisSlot]
    exact alike.2
  have made : (memoryThree.addClass ⟨name.lexeme, table⟩).1 =
      (machineThree.addClass ⟨name.lexeme, table, ctx.bindings.slot? thisId⟩).1 :=
    third.shared.objects.classes
  refine Lockstep.modifyGet_bind
    (f := (·.addClass ⟨name.lexeme, table, ctx.bindings.slot? thisId⟩))
    (g := (·.addClass ⟨name.lexeme, table⟩)) added ?_
  rw [made]
  have later := second.trans (third.trans added)
  have leads := (own.leads_own (path.adds_own id name) holds bound).le later.le own.frames
  rw [← declared.current, ← later.current] at leads
  apply (store_lockstep added.shared leads (backs_class _)).bind
  intro _ _ last _ _ stored _
  exact Lockstep.pure stored.shared ⟨flowAlike_normal, fun _ =>
    (sees _ (Path.adds_past holds rfl)).le (later.trans stored).le⟩

section

variable (matched : Matches ctx plain)
include matched

mutual

theorem expr_lockstep : ∀ (e : Expr) (path : Path) (sight : Sight) (w : World) (m : Machine)
    (n : Memory), Ready ctx.bindings w m n path sight (Sites.expr path e) [] → Regular.expr e →
    Initialized.expr e = [] →
    Lockstep ctx.bindings [] w m n (Exec.expr ctx e) (Run.expr plain sight e) (Alike ctx.bindings)
  | .literal value, _, _, w, m, n, ready, _, _ => by
      refine Lockstep.pure ready.shared ⟨rfl, backs_of_other fun id => ?_⟩
      cases value <;> nofun
  | .unary operator right, path, sight, w, m, n, ready, regular, noInitial => by
      apply (expr_lockstep right path sight w m n ready regular noInitial).bind
      intro a b more after last step alike
      rw [alike.1]
      exact ofOperator_lockstep step.shared operator (Value.plainResult_applyUnary _ _)
  | .binary left operator right, path, sight, w, m, n, ready, regular, noInitial => by
      have parts := List.append_eq_nil_iff.mp noInitial
      apply (expr_lockstep left path sight w m n ready.left regular.1 parts.1).bind
      intro a b more after last step alike
      refine (expr_lockstep right path sight more after last (ready.right.step step) regular.2
        parts.2).bind fun c d more after last step others => ?_
      rw [alike.1, others.1]
      exact ofOperator_lockstep step.shared operator (Value.plainResult_applyBinary _ _ _)
  | .logical left operator right, path, sight, w, m, n, ready, regular, noInitial => by
      have parts := List.append_eq_nil_iff.mp noInitial
      apply (expr_lockstep left path sight w m n ready.left regular.1 parts.1).bind
      intro a b more after last step alike
      rw [alike.1]
      split
      · exact Lockstep.pure step.shared ⟨rfl, alike.2⟩
      · exact expr_lockstep right path sight more after last (ready.right.step step) regular.2
          parts.2
  | .ternary condition thenBranch elseBranch, path, sight, w, m, n, ready, regular, noInitial => by
      have parts := List.append_eq_nil_iff.mp noInitial
      have first := List.append_eq_nil_iff.mp parts.1
      apply (expr_lockstep condition path sight w m n ready.left.left regular.1 first.1).bind
      intro a b more after last step alike
      rw [alike.1]
      split
      · exact expr_lockstep thenBranch path sight more after last (ready.left.right.step step)
          regular.2.1 first.2
      · exact expr_lockstep elseBranch path sight more after last (ready.right.step step)
          regular.2.2 parts.2
  | .grouping inner, path, sight, w, m, n, ready, regular, noInitial =>
      expr_lockstep inner path sight w m n ready regular noInitial
  | .variable id name, path, sight, w, m, n, ready, _, _ =>
      lookUp_lockstep ready.shared
        (ready.placed.sees.leads (ready.placed.bound _ List.mem_cons_self))
  | .assign id name value, path, sight, w, m, n, ready, regular, noInitial => by
      apply (expr_lockstep value path sight w m n ready.left regular.2 noInitial).bind
      intro a b more after last step alike
      have there := ready.right.step step
      rw [alike.1]
      refine (store_lockstep there.shared
        (there.placed.sees.leads (there.placed.bound _ List.mem_cons_self)) alike.2).bind
        fun _ _ final _ _ stored _ => ?_
      exact Lockstep.pure stored.shared ⟨rfl, alike.2.le stored.le⟩
  | .call callee paren arguments, path, sight, w, m, n, ready, regular, noInitial => by
      have parts := List.append_eq_nil_iff.mp noInitial
      apply (expr_lockstep callee path sight w m n ready.left regular.1 parts.1).bind
      intro a b more after last step alike
      refine (exprs_lockstep arguments path sight more after last (ready.right.step step) regular.2
        parts.2).bind fun c d final _ _ later others => ?_
      rw [alike.1, others.1]
      exact invoke_lockstep matched later.shared (alike.2.le later.le) others.2 paren
  | .function decl, path, sight, w, m, n, ready, regular, noInitial =>
      close_lockstep ready.shared ready.placed regular noInitial
  | .get object name, path, sight, w, m, n, ready, regular, noInitial => by
      apply (expr_lockstep object path sight w m n ready regular noInitial).bind
      intro a b more after last step alike
      rw [alike.1]
      exact getProperty_lockstep step.shared a name
  | .set object name value, path, sight, w, m, n, ready, regular, noInitial => by
      have parts := List.append_eq_nil_iff.mp noInitial
      apply (expr_lockstep object path sight w m n ready.right regular.1 parts.1).bind
      intro a b more after last step alike
      rw [alike.1]
      refine (receiver_lockstep step.shared a name).bind fun c d second _ _ received same => ?_
      have there := step.trans received
      refine (expr_lockstep value path sight second _ _ (ready.left.step there) regular.2
        parts.2).bind fun e f third final result evaluated others => ?_
      rw [same, others.1]
      have set : Step ctx.bindings [] third final third (final.setField c name.lexeme e)
          (result.setField c name.lexeme e) :=
        Step.still (World.Le.refl third) (evaluated.shared.setField c name.lexeme others.2) rfl rfl
      refine Lockstep.modify_bind (f := (·.setField c name.lexeme e))
        (g := (·.setField c name.lexeme e)) set ?_
      exact Lockstep.pure set.shared ⟨rfl, others.2⟩
  | .this id keyword, path, sight, w, m, n, ready, _, _ =>
      lookUp_lockstep ready.shared
        (ready.placed.sees.leads (ready.placed.bound _ List.mem_cons_self))

theorem exprs_lockstep : ∀ (es : List Expr) (path : Path) (sight : Sight) (w : World) (m : Machine)
    (n : Memory), Ready ctx.bindings w m n path sight (Sites.exprs path es) [] →
    Regular.exprs es → Initialized.exprs es = [] →
    Lockstep ctx.bindings [] w m n (Exec.exprs ctx es) (Run.exprs plain sight es)
      fun more a b => b = a ∧ ∀ value ∈ a, more.Backs ctx.bindings value
  | [], _, _, _, _, _, ready, _, _ =>
      Lockstep.pure ready.shared ⟨rfl, fun _ impossible => nomatch impossible⟩
  | e :: rest, path, sight, w, m, n, ready, regular, noInitial => by
      have parts := List.append_eq_nil_iff.mp noInitial
      apply (expr_lockstep e path sight w m n ready.left regular.1 parts.1).bind
      intro a b more after last step alike
      refine (exprs_lockstep rest path sight more after last (ready.right.step step) regular.2
        parts.2).bind fun c d final _ _ later others => ?_
      rw [alike.1, others.1]
      refine Lockstep.pure later.shared ⟨rfl, fun wanted member => ?_⟩
      cases member with
      | head => exact alike.2.le later.le
      | tail _ inRest => exact others.2 wanted inRest

theorem stmt_lockstep : ∀ (s : Stmt) (path : Path) (sight : Sight) (w : World) (m : Machine)
    (n : Memory), path.holdsStatements = true →
    Ready ctx.bindings w m n path sight (Sites.stmt path s) (ownSlots ctx.bindings s.declared) →
    Regular.stmt s → Initialized.stmt s = [] →
    Lockstep ctx.bindings (ownSlots ctx.bindings s.declared) w m n (Exec.stmt ctx s)
      (Run.stmt plain sight s) (Onward ctx.bindings (path.past s) m.environment.current)
  | .expression value, path, sight, w, m, n, holds, ready, regular, noInitial => by
      apply (expr_lockstep value path sight w m n ready regular noInitial).bind
      intro a b more after last step alike
      exact Lockstep.pure step.shared ⟨flowAlike_normal, fun _ =>
        (ready.placed.sees.past_nil holds rfl).le step.le⟩
  | .print value, path, sight, w, m, n, holds, ready, regular, noInitial => by
      apply (expr_lockstep value path sight w m n ready regular noInitial).bind
      intro a b more after last step alike
      rw [alike.1]
      refine (print_lockstep step.shared a).bind fun _ _ final _ _ printed _ => ?_
      exact Lockstep.pure printed.shared ⟨flowAlike_normal, fun _ =>
        (ready.placed.sees.past_nil holds rfl).le (step.trans printed).le⟩
  | .var id name none, path, sight, w, m, n, holds, ready, regular, noInitial =>
      (declare_lockstep ready backs_nil).bind_still fun _ inner more after last step sees =>
        Lockstep.pure step.shared ⟨flowAlike_normal, fun _ => sees _ (Path.adds_past holds rfl)⟩
  | .var id name (some initial), path, sight, w, m, n, holds, ready, regular, noInitial => by
      have bound := ready.placed.bound _ List.mem_cons_self
      have isOwn := slotsOf_declaration path name bound
      have inside := ready.placed.tail fun slot member => isOwn ▸ member
      have sees : Sees ctx.bindings w (.initializer id name :: path) m.environment.current sight :=
        inside.sees.at_path rfl fun wanted => Path.declaration?_initializer path wanted id name
      refine (expr_lockstep initial (.initializer id name :: path) sight w m n
        ⟨ready.shared, inside.move sees⟩ regular.2 noInitial).bind
        fun a b more after last step alike => ?_
      have there := ready.step step
      rw [alike.1, ← step.current]
      exact (declare_lockstep there alike.2).bind_still fun _ inner _ _ _ declared onward =>
        Lockstep.pure declared.shared ⟨flowAlike_normal, fun _ =>
          onward _ (Path.adds_past holds rfl)⟩
  | .block body, path, sight, w, m, n, holds, ready, regular, noInitial => by
      have locals := ready.shared.locals
      have placed := ready.placed.enter locals
        (stmts_covers body (.block [] :: path) regular ready.placed.bound)
      have sees := placed.sees.open (.block [] :: path) rfl
        fun name => Path.declaration?_block path name
      have inside := placed.move sees
      rw [← locals.frames] at inside
      have body := stmts_lockstep body (.block [] :: path) sight.enter _ _ n rfl
        ⟨ready.shared.enter m.environment.current _, inside⟩ regular noInitial
      exact Lockstep.capture_bind ((Lockstep.within _ _ body locals.frames).yield
        (fun flow => (flow, sight)) fun _ _ _ _ _ step alike => ⟨alike, fun _ =>
          (ready.placed.sees.past_nil holds rfl).le step.le⟩)
  | .branch condition thenBranch none, path, sight, w, m, n, holds, ready, regular, noInitial => by
      have parts := List.append_eq_nil_iff.mp noInitial
      have declared : Stmt.declared (.branch condition thenBranch none) = [] := regular.2.2
      rw [declared] at ready ⊢
      apply (expr_lockstep condition path sight w m n ready.left regular.1 parts.1).bind
      intro a b more after last step alike
      have there := ready.right.step step
      have sees := there.placed.sees.past_nil holds declared
      rw [alike.1, ← step.current]
      split
      · rw [← regular.2.2] at there
        have inThen := stmt_lockstep thenBranch path sight more after last holds there regular.2.1
          parts.2
        rw [regular.2.2] at inThen
        exact inThen.bare sees
      · exact Lockstep.pure step.shared ⟨flowAlike_normal, fun _ => sees⟩
  | .branch condition thenBranch (some elseBranch), path, sight, w, m, n, holds, ready, regular,
      noInitial => by
      have parts := List.append_eq_nil_iff.mp noInitial
      have first := List.append_eq_nil_iff.mp parts.1
      have declared : Stmt.declared (.branch condition thenBranch (some elseBranch)) = [] := by
        rw [Stmt.declared, regular.2.1.2, regular.2.2.2, List.append_nil]
      rw [declared] at ready ⊢
      apply (expr_lockstep condition path sight w m n ready.left.left regular.1 first.1).bind
      intro a b more after last step alike
      have there := ready.step step
      have sees := there.placed.sees.past_nil holds declared
      rw [alike.1, ← step.current]
      split
      · have here := there.left.right
        rw [← regular.2.1.2] at here
        have inThen := stmt_lockstep thenBranch path sight more after last holds here
          regular.2.1.1 first.2
        rw [regular.2.1.2] at inThen
        exact inThen.bare sees
      · have here := there.right.placed.move (there.placed.sees.past_nil holds regular.2.1.2)
        rw [← regular.2.2.2] at here
        have inElse := stmt_lockstep elseBranch (path.past thenBranch) sight more after last
          (Path.holdsStatements_past holds) ⟨step.shared, here⟩ regular.2.2.1 parts.2
        rw [regular.2.2.2] at inElse
        exact inElse.bare sees
  | .loop condition body, path, sight, w, m, n, holds, ready, regular, noInitial => by
      have parts := List.append_eq_nil_iff.mp noInitial
      have declared : Stmt.declared (.loop condition body) = [] := regular.2.2
      rw [declared] at ready ⊢
      have rounds := repeatWhile_lockstep (w := w) (m := m)
        (fun more after last step => (expr_lockstep condition path sight more after last
          (ready.left.step step) regular.1 parts.1).map Value.isTruthy Value.isTruthy
            fun _ a b alike => congrArg Value.isTruthy alike.1)
        (fun more after last step => by
          have there := ready.right.step step
          rw [← regular.2.2] at there
          have round := stmt_lockstep body path sight more after last holds there regular.2.1
            parts.2
          rw [regular.2.2] at round
          have flow := round.yield Prod.fst fun _ _ _ _ _ _ onward => onward.alike
          rw [← map_eq_pure_bind] at flow
          exact flow)
        ctx.rounds w m n (Step.refl ready.shared)
      have whole := rounds.yield (fun flow => (flow, sight)) (fun _ _ _ _ _ step alike =>
        Onward.mk alike fun _ => (ready.placed.sees.past_nil holds declared).le step.le)
      change Lockstep _ _ _ _ _ _ (Run.repeatWhile _ _ plain.rounds >>= _) _
      rw [matched.rounds]
      exact whole
  | .function id name decl, path, sight, w, m, n, holds, ready, regular, noInitial => by
      have declared : Lockstep ctx.bindings (ctx.bindings.slotsOf [id]) w m n
          ((Exec.close decl >>= Exec.declare ctx id name) >>= fun _ => pure Flow.normal)
          (Run.declareFunction sight name decl >>= fun inner => pure (Flow.normal, inner))
          (Onward ctx.bindings (path.past (.function id name decl)) m.environment.current) :=
        (declareFunction_lockstep ready holds regular.2 noInitial).bind_still
          fun _ inner _ _ _ step sees =>
            Lockstep.pure step.shared ⟨flowAlike_normal, fun _ => sees _ (Path.adds_past holds rfl)⟩
      rw [bind_assoc] at declared
      exact declared
  | .ret _ none, path, sight, w, m, n, holds, ready, regular, noInitial =>
      Lockstep.pure ready.shared ⟨⟨rfl, fun value same => by
        cases same
        exact backs_nil⟩, nofun⟩
  | .ret _ (some value), path, sight, w, m, n, holds, ready, regular, noInitial => by
      have inside := ready.placed.part (List.sublist_cons_self _ _)
      apply (expr_lockstep value path sight w m n ⟨ready.shared, inside⟩ regular noInitial).bind
      intro a b more after last step alike
      rw [alike.1]
      exact Lockstep.pure step.shared ⟨⟨rfl, fun other same => by
        cases same
        exact alike.2⟩, nofun⟩
  | .class id name thisId fieldDecls methodDecls, path, sight, w, m, n, holds, ready, regular,
      noInitial => by
      have parts := List.append_eq_nil_iff.mp noInitial
      exact class_lockstep holds ready regular.2.2 parts.1 parts.2

theorem stmts_lockstep : ∀ (ss : List Stmt) (path : Path) (sight : Sight) (w : World)
    (m : Machine) (n : Memory), path.holdsStatements = true →
    Ready ctx.bindings w m n path sight (Sites.stmts path ss)
      (ownSlots ctx.bindings (ss.flatMap Stmt.declared)) →
    Regular.stmts ss → Initialized.stmts ss = [] →
    Lockstep ctx.bindings (ownSlots ctx.bindings (ss.flatMap Stmt.declared)) w m n
      (Exec.stmts ctx ss) (Run.stmts plain sight ss) (FlowAlike ctx.bindings)
  | [], _, _, _, _, _, _, ready, _, _ => Lockstep.pure ready.shared flowAlike_normal
  | s :: rest, path, sight, w, m, n, holds, ready, regular, noInitial => by
      have parts := List.append_eq_nil_iff.mp noInitial
      obtain ⟨shared, placed⟩ := ready
      rw [List.flatMap_cons, ownSlots_append] at placed ⊢
      have bound := List.forall_mem_append.mp placed.bound
      have covers := stmts_covers rest (path.past s) regular.2 bound.2
      refine (stmt_lockstep s path sight w m n holds ⟨shared, placed.first covers⟩ regular.1
        parts.1).bind fun flow onward more after last step ends => ?_
      obtain ⟨plainFlow, inner⟩ := onward
      cases flow with
      | normal =>
          rw [show plainFlow = .normal from ends.alike.same]
          have there := placed.second (stmt_covers regular.1 bound.1) covers step.le step.fresh
          have sees := there.move (ends.sees rfl)
          rw [← step.current] at sees
          exact stmts_lockstep rest (path.past s) inner more after last
            (Path.holdsStatements_past holds) ⟨step.shared, sees⟩ regular.2 parts.2
      | returned value =>
          rw [show plainFlow = .returned value from ends.alike.same]
          exact Lockstep.pure step.shared ⟨rfl, ends.alike.backs⟩

end

end

end Lox.Lexical
