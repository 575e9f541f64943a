import Lox.Proofs.Machine.Operations

set_option autoImplicit false

/-! The guard never sounds its alarm. On a sound machine whose chain covers the place of some code, the
guarded interpreter and the interpreter end alike: by induction on the code, and on the bound for the
functions that it calls. -/

namespace Lox

variable {known : Site → Prop} {path : Path} {ctx : Context}

set_option linter.unusedSectionVars false

section

variable (vouched : Vouched known ctx.bindings) (alarm : Guarded.Alarm)
  {other : FunctionId → List Value → Exec Value}
  (calls : CallsAlike known ctx.bindings other ctx.call)
include vouched calls

omit calls in
/-- A class sees itself in its members, and is stored where its name leads. -/
theorem class_keeps {id thisId : NodeId} {name : Token} {fieldDecls : List FieldDecl}
    {methodDecls : List FunctionDecl} {m : Machine} (holds : path.holdsStatements = true)
    (ready : m.Ready known ctx.bindings path)
    (sites : ∀ site ∈ Sites.stmt path (.class id name thisId fieldDecls methodDecls), known site)
    (regular : Regular.functions methodDecls)
    (evaluates : ∀ (slot : Option Slot) (one : Machine),
      one.Ready known ctx.bindings (.field :: .members thisId :: .own id name :: path) →
      (∀ site ∈ Sites.fields (.field :: .members thisId :: .own id name :: path) fieldDecls, known site) →
      Keeps known ctx.bindings one
        (Guarded.fields alarm { ctx with call := other } Table.empty fieldDecls)
        (Exec.fields ctx Table.empty fieldDecls)
        fun last table => last.BacksTable known ctx.bindings slot table) :
    Keeps known ctx.bindings m
      (Guarded.stmt alarm { ctx with call := other } (.class id name thisId fieldDecls methodDecls))
      (Exec.stmt ctx (.class id name thisId fieldDecls methodDecls))
      fun last flow => last.Onward known ctx.bindings
        (path.past (.class id name thisId fieldDecls methodDecls)) flow := by
  have isKnown := sites _ List.mem_cons_self
  have bound := vouched.bound _ isKnown
  have inside := (List.forall_mem_append.mp fun site member =>
    sites site (List.mem_cons_of_mem _ member)).2
  have parts := List.forall_mem_append.mp fun site member =>
    inside site (List.mem_cons_of_mem _ member)
  obtain ⟨slot, thisSlot⟩ := Option.isSome_iff_exists.mp
    (vouched.bound _ (inside _ List.mem_cons_self))
  apply (declare_keeps other ready.sound id name Machine.backs_nil).bind
  intro _ one first held
  have declares : (ctx.bindings.slot? id).isSome = path.isLocal := bound
  have own : one.environment.Covers ctx.bindings (.own id name :: path)
      one.environment.current := by
    refine (ready.steps first).covers.own name fun isLocal => ?_
    rw [isLocal] at declares
    obtain ⟨ownSlot, slotOf⟩ := Option.isSome_iff_exists.mp declares
    rw [first.current]
    exact ⟨ownSlot, slotOf, held ownSlot slotOf⟩
  refine (evaluates (some slot) one ⟨first.sound, own.field thisId⟩ parts.1).bind
    fun table two second backs => ?_
  apply Keeps.capture_bind
  have ownAfter := own.grow second.grows
  rw [← second.current] at ownAfter
  refine (addMethods_keeps thisSlot _ methodDecls two table second.sound ownAfter parts.2
    regular backs).bind fun members three third backsMembers => ?_
  rw [← thisSlot] at backsMembers
  have added := third.sound.addClass ⟨name.lexeme, members, ctx.bindings.slot? thisId⟩
    backsMembers
  apply Keeps.modifyGet_bind added
  have before := first.trans (second.trans (third.trans added))
  have heldAfter (slot : Slot) (slotOf : ctx.bindings.slot? id = some slot) :
      (three.addClass ⟨name.lexeme, members, ctx.bindings.slot? thisId⟩).2.environment.Holds
        (three.addClass ⟨name.lexeme, members,
          ctx.bindings.slot? thisId⟩).2.environment.current slot := by
    rw [before.current]
    exact (held slot slotOf).grow (second.trans (third.trans added)).grows
  refine (store_keeps alarm other added.sound (Machine.backs_class _) isKnown rfl
    heldAfter).bind fun _ last stored _ => Keeps.pure stored.sound ?_
  apply (ready.steps (before.trans stored)).onward_past holds rfl bound
  intro slot slotOf
  rw [stored.current]
  exact (heldAfter slot slotOf).grow stored.grows

mutual

theorem expr_keeps : ∀ (e : Expr) (path : Path) (m : Machine), m.Ready known ctx.bindings path →
    (∀ site ∈ Sites.expr path e, known site) → Regular.expr e →
    Keeps known ctx.bindings m (Guarded.expr alarm { ctx with call := other } e) (Exec.expr ctx e)
      fun last value => last.Backs known ctx.bindings value
  | .literal value, _, m, ready, _, _ => by
      refine Keeps.pure ready.sound (Machine.backs_of_other fun id => ?_)
      cases value <;> nofun
  | .unary operator right, path, m, ready, sites, regular =>
      (expr_keeps right path m ready sites regular).bind fun _ _ steps _ =>
        ofOperator_keeps steps.sound operator (Value.plainResult_applyUnary _ _)
  | .binary left operator right, path, m, ready, sites, regular =>
      (expr_keeps left path m ready (List.forall_mem_append.mp sites).1
        regular.1).bind fun _ after steps _ =>
          (expr_keeps right path after (ready.steps steps)
            (List.forall_mem_append.mp sites).2 regular.2).bind
            fun _ _ more _ =>
              ofOperator_keeps more.sound operator (Value.plainResult_applyBinary _ _ _)
  | .logical left operator right, path, m, ready, sites, regular => by
      refine (expr_keeps left path m ready
        (List.forall_mem_append.mp sites).1 regular.1).bind
        fun value after steps backs => ?_
      split
      · exact Keeps.pure steps.sound backs
      · exact expr_keeps right path after (ready.steps steps)
          (List.forall_mem_append.mp sites).2 regular.2
  | .ternary condition thenBranch elseBranch, path, m, ready, sites, regular => by
      rw [Sites.expr] at sites
      simp only [List.mem_append] at sites
      refine (expr_keeps condition path m ready
        (fun site member => sites site (.inl (.inl member))) regular.1).bind fun _ after steps _ => ?_
      split
      · exact expr_keeps thenBranch path after (ready.steps steps)
          (fun site member => sites site (.inl (.inr member))) regular.2.1
      · exact expr_keeps elseBranch path after (ready.steps steps)
          (fun site member => sites site (.inr member)) regular.2.2
  | .grouping inner, path, m, ready, sites, regular => expr_keeps inner path m ready sites regular
  | .variable id name, path, m, ready, sites, regular =>
      have isKnown := sites _ List.mem_cons_self
      lookUp_keeps alarm other ready.sound isKnown rfl fun _ bound =>
        ready.holds (vouched.bound _ isKnown) (fun same => absurd same regular) bound
  | .assign id name value, path, m, ready, sites, regular => by
      have isKnown := sites _ (List.mem_append_right _ List.mem_cons_self)
      refine (expr_keeps value path m ready
        (List.forall_mem_append.mp sites).1 regular.2).bind
        fun _ after steps backs => ?_
      refine (store_keeps alarm other steps.sound backs isKnown rfl fun _ bound =>
        (ready.steps steps).holds (vouched.bound _ isKnown) (fun same => absurd same regular.1)
          bound).bind fun _ last more _ => ?_
      exact Keeps.pure more.sound (backs.grow more.grows)
  | .call callee paren arguments, path, m, ready, sites, regular =>
      (expr_keeps callee path m ready
        (List.forall_mem_append.mp sites).1 regular.1).bind
        fun _ after steps runs =>
          (exprs_keeps arguments path after (ready.steps steps)
            (List.forall_mem_append.mp sites).2 regular.2).bind
            fun _ _ more backs => invoke_keeps calls more.sound (runs.grow more.grows) backs paren
  | .function decl, path, m, ready, sites, regular => by
      have steps := ready.sound.addFunction ⟨decl, m.environment.current, none⟩
      exact ⟨rfl, steps, Machine.backs_addFunction ⟨path, .function, sites, regular, ready.covers⟩⟩
  | .get object name, path, m, ready, sites, regular =>
      (expr_keeps object path m ready sites regular).bind fun _ _ steps _ =>
        getProperty_keeps steps.sound _ name
  | .set object name value, path, m, ready, sites, regular => by
      refine (expr_keeps object path m ready
        (List.forall_mem_append.mp sites).2 regular.1).bind
        fun _ after steps _ => ?_
      refine (receiver_keeps steps.sound _ name).bind fun id middle more _ => ?_
      have there := steps.trans more
      refine (expr_keeps value path middle (ready.steps there)
        (List.forall_mem_append.mp sites).1 regular.2).bind
        fun _ last further backs => ?_
      have set := further.sound.setField id name.lexeme backs
      refine (Keeps.modify set).bind fun _ final _ same => ?_
      rw [same]
      exact Keeps.pure set.sound (backs.grow set.grows)
  | .this id keyword, path, m, ready, sites, regular => by
      have isKnown := sites _ List.mem_cons_self
      refine lookUp_keeps alarm other ready.sound isKnown rfl fun _ bound =>
        ready.holds (vouched.bound _ isKnown) (fun _ => ?_) bound
      have clean := vouched.clean _ isKnown
      cases inField : path.inField with
      | false => rfl
      | true =>
          cases inClass : path.inClass with
          | false => exact absurd (.thisOutsideClass inClass) (clean _)
          | true => exact absurd (.thisInField inClass inField) (clean _)

theorem exprs_keeps : ∀ (es : List Expr) (path : Path) (m : Machine),
    m.Ready known ctx.bindings path → (∀ site ∈ Sites.exprs path es, known site) →
    Regular.exprs es →
    Keeps known ctx.bindings m (Guarded.exprs alarm { ctx with call := other } es)
      (Exec.exprs ctx es) fun last values => ∀ value ∈ values, last.Backs known ctx.bindings value
  | [], _, m, ready, _, _ => Keeps.pure ready.sound fun _ impossible => nomatch impossible
  | e :: rest, path, m, ready, sites, regular => by
      refine (expr_keeps e path m ready
        (List.forall_mem_append.mp sites).1 regular.1).bind
        fun value after steps backs => ?_
      refine (exprs_keeps rest path after (ready.steps steps)
        (List.forall_mem_append.mp sites).2 regular.2).bind
        fun values last more others => ?_
      refine Keeps.pure more.sound fun wanted member => ?_
      cases member with
      | head => exact backs.grow more.grows
      | tail _ later => exact others wanted later

theorem stmt_keeps : ∀ (s : Stmt) (path : Path) (m : Machine), path.holdsStatements = true →
    m.Ready known ctx.bindings path → (∀ site ∈ Sites.stmt path s, known site) → Regular.stmt s →
    Keeps known ctx.bindings m (Guarded.stmt alarm { ctx with call := other } s) (Exec.stmt ctx s)
      fun last flow => last.Onward known ctx.bindings (path.past s) flow
  | .expression value, path, m, holds, ready, sites, regular =>
      (expr_keeps value path m ready sites regular).bind fun _ _ steps _ =>
        Keeps.pure steps.sound ((ready.steps steps).onward holds rfl Machine.backsFlow_normal)
  | .print value, path, m, holds, ready, sites, regular =>
      (expr_keeps value path m ready sites regular).bind fun _ _ steps _ =>
        (print_keeps steps.sound _).bind fun _ _ more _ =>
          Keeps.pure more.sound ((ready.steps (steps.trans more)).onward holds rfl
            Machine.backsFlow_normal)
  | .var id name none, path, m, holds, ready, sites, regular => by
      refine (declare_keeps other ready.sound id name Machine.backs_nil).bind
        fun _ last steps held => Keeps.pure steps.sound ?_
      rw [← steps.current] at held
      exact (ready.steps steps).onward_past holds rfl
        (vouched.bound _ (sites _ List.mem_cons_self)) held
  | .var id name (some initial), path, m, holds, ready, sites, regular => by
      have inside : m.Ready known ctx.bindings (.initializer id name :: path) :=
        ⟨ready.sound, ready.covers.initializer id name⟩
      refine (expr_keeps initial _ m inside (fun site member => sites site
        (List.mem_cons_of_mem _ member)) regular.2).bind fun value after steps backs => ?_
      refine (declare_keeps other steps.sound id name backs).bind
        fun _ last more held => Keeps.pure more.sound ?_
      rw [← more.current] at held
      exact (ready.steps (steps.trans more)).onward_past holds rfl
        (vouched.bound _ (sites _ List.mem_cons_self)) held
  | .block body, path, m, holds, ready, sites, regular => by
      apply Keeps.capture_bind
      have grafted := ready.sound.graft m.environment.current
      refine (Keeps.within ready.sound m.environment.current
        (fun flow last chain backs value same => (backs value same).grow
          (Machine.grows_restore last chain))
        (stmts_keeps body (.block [] :: path) _ rfl ⟨grafted.1, ?_⟩ sites regular)).imp
        fun flow last steps backs => (ready.steps steps).onward holds rfl backs
      exact (ready.covers.grow grafted.2).block m.environment.frames.size
  | .branch condition thenBranch none, path, m, holds, ready, sites, regular => by
      apply (expr_keeps condition path m ready (List.forall_mem_append.mp sites).1 regular.1).bind
      intro _ after steps _
      have there := ready.steps steps
      have declared : Stmt.declared (.branch condition thenBranch none) = [] := regular.2.2
      split
      · exact (stmt_keeps thenBranch path after holds there (List.forall_mem_append.mp sites).2
          regular.2.1).imp fun flow last more onward =>
            (there.steps more).onward holds declared onward.backs
      · exact Keeps.pure steps.sound (there.onward holds declared Machine.backsFlow_normal)
  | .branch condition thenBranch (some elseBranch), path, m, holds, ready, sites, regular => by
      have declared : Stmt.declared (.branch condition thenBranch (some elseBranch)) = [] := by
        rw [Stmt.declared, regular.2.1.2, regular.2.2.2, List.append_nil]
      have parts := List.forall_mem_append.mp sites
      have first := List.forall_mem_append.mp parts.1
      refine (expr_keeps condition path m ready first.1 regular.1).bind fun _ after steps _ => ?_
      have there := ready.steps steps
      split
      · exact (stmt_keeps thenBranch path after holds there first.2 regular.2.1.1).imp
          fun flow last more onward => (there.steps more).onward holds declared onward.backs
      · have past : after.Ready known ctx.bindings (path.past thenBranch) :=
          ⟨there.sound, there.covers.past_nil holds regular.2.1.2⟩
        exact (stmt_keeps elseBranch (path.past thenBranch) after (Path.holdsStatements_past holds)
          past parts.2 regular.2.2.1).imp
          fun flow last more onward => (there.steps more).onward holds declared onward.backs
  | .loop condition body, path, m, holds, ready, sites, regular => by
      have declared : Stmt.declared (.loop condition body) = [] := regular.2.2
      refine (Keeps.repeatWhile (m := m)
        (fun after steps => (expr_keeps condition path after (ready.steps steps)
          (List.forall_mem_append.mp sites).1 regular.1).map _ fun _ _ _ _ => trivial)
        (fun after steps => (stmt_keeps body path after holds (ready.steps steps)
          (List.forall_mem_append.mp sites).2 regular.2.1).imp fun _ _ _ onward => onward.backs)
        ctx.rounds m (Machine.Steps.refl ready.sound)).imp fun flow last steps backs => ?_
      exact (ready.steps steps).onward holds declared backs
  | .function id name decl, path, m, holds, ready, sites, regular => by
      have bound := vouched.bound _ (sites _ List.mem_cons_self)
      have declared := declareFunction_keeps other ready bound
        (fun site member => sites site (List.mem_cons_of_mem _ member)) regular.2
      refine declared.bind fun _ last steps held => Keeps.pure steps.sound ?_
      rw [← steps.current] at held
      exact (ready.steps steps).onward_past holds rfl bound held
  | .ret _ none, path, m, holds, ready, sites, regular =>
      Keeps.pure ready.sound ⟨nofun, fun value same => by
        cases same
        exact Machine.backs_nil⟩
  | .ret _ (some value), path, m, holds, ready, sites, regular =>
      (expr_keeps value path m ready (fun site member => sites site
        (List.mem_cons_of_mem _ member)) regular).bind fun _ _ steps backs =>
          Keeps.pure steps.sound ⟨nofun, fun other same => by
            cases same
            exact backs⟩
  | .class id name thisId fieldDecls methodDecls, path, m, holds, ready, sites, regular =>
      class_keeps vouched alarm holds ready sites regular.2.2 fun slot one inside known =>
        fields_keeps slot fieldDecls _ one Table.empty inside known regular.2.1
          (fun _ _ impossible => nomatch impossible)

theorem stmts_keeps : ∀ (ss : List Stmt) (path : Path) (m : Machine),
    path.holdsStatements = true → m.Ready known ctx.bindings path →
    (∀ site ∈ Sites.stmts path ss, known site) → Regular.stmts ss →
    Keeps known ctx.bindings m (Guarded.stmts alarm { ctx with call := other } ss)
      (Exec.stmts ctx ss) fun last flow => last.BacksFlow known ctx.bindings flow
  | [], _, m, _, ready, _, _ => Keeps.pure ready.sound Machine.backsFlow_normal
  | s :: rest, path, m, holds, ready, sites, regular => by
      apply (stmt_keeps s path m holds ready (List.forall_mem_append.mp sites).1 regular.1).bind
      intro flow after steps onward
      cases flow with
      | normal =>
          exact stmts_keeps rest (path.past s) after (Path.holdsStatements_past holds)
            ⟨steps.sound, onward.covers rfl⟩ (List.forall_mem_append.mp sites).2 regular.2
      | returned value => exact Keeps.pure steps.sound onward.backs

theorem fields_keeps (thisSlot : Option Slot) : ∀ (decls : List FieldDecl) (path : Path)
    (m : Machine) (table : Table String Value), m.Ready known ctx.bindings path →
    (∀ site ∈ Sites.fields path decls, known site) → Regular.fields decls →
    m.BacksTable known ctx.bindings thisSlot table →
    Keeps known ctx.bindings m (Guarded.fields alarm { ctx with call := other } table decls)
      (Exec.fields ctx table decls)
      fun last table => last.BacksTable known ctx.bindings thisSlot table
  | [], _, _, _, ready, _, _, backs => Keeps.pure ready.sound backs
  | .mk _ none :: rest, path, m, _, ready, sites, regular, backs =>
      fields_keeps thisSlot rest path m _ ready sites regular
        (backs.insert _ (Machine.backs_nil.member thisSlot))
  | .mk _ (some initial) :: rest, path, m, _, ready, sites, regular, backs =>
      (expr_keeps initial path m ready (List.forall_mem_append.mp sites).1 regular.1).bind
        fun _ after steps own => fields_keeps thisSlot rest path after _ (ready.steps steps)
          (List.forall_mem_append.mp sites).2 regular.2
          ((backs.grow steps.grows).insert _ (own.member thisSlot))

end

theorem body_keeps {object : FunctionObject} {arguments : List Value} {m : Machine}
    (sound : m.Sound known ctx.bindings) (runs : object.Runs known ctx.bindings m.environment)
    (backs : ∀ value ∈ arguments, m.Backs known ctx.bindings value)
    (arity : object.arity = arguments.length) :
    Keeps known ctx.bindings m (Guarded.body alarm { ctx with call := other } object arguments)
      (Exec.body ctx object arguments) fun last value => last.Backs known ctx.bindings value := by
  obtain ⟨⟨name, kind, parameters, body⟩, closure, receiver⟩ := object
  obtain ⟨path, role, sites, regular, covers⟩ := runs
  have parts := List.forall_mem_append.mp sites
  have flow : Keeps known ctx.bindings m
      (Exec.deeper <| Exec.within closure do
        modify fun m => { m with
          environment := Exec.bindParams ctx.bindings m.environment parameters arguments }
        Guarded.stmts alarm { ctx with call := other } body)
      (Exec.deeper <| Exec.within closure do
        modify fun m => { m with
          environment := Exec.bindParams ctx.bindings m.environment parameters arguments }
        Exec.stmts ctx body)
      fun last flow => last.BacksFlow known ctx.bindings flow := by
    refine Keeps.deeper (fun flow last depth backs => backs) ?_
    have deep : Machine.Sound known ctx.bindings { m with depth := m.depth + 1 } :=
      ⟨sound.current, sound.root, sound.cells, sound.globals, sound.members, sound.fields⟩
    have grafted := deep.graft closure
    have deepGrows : m.Grows { m with depth := m.depth + 1 } :=
      Machine.Grows.of_eq rfl rfl
    have grows := deepGrows.trans grafted.2
    refine Keeps.within deep closure (fun flow last chain backs value same =>
      (backs value same).grow (Machine.grows_restore last chain)) ?_
    have bound := bindParams_steps parameters arguments [] _ grafted.1
      (fun value member => (backs value member).grow grows) arity
      (fun site member => vouched.bound site (parts.1 site member))
      ((covers.grow grows).function role m.environment.frames.size)
    refine (Keeps.modify bound.1).bind fun _ last _ same => ?_
    rw [same]
    refine stmts_keeps vouched alarm calls body _ _ rfl ⟨bound.1.sound, ?_⟩ parts.2 regular.2
    have inside := bound.2
    rw [List.append_nil] at inside
    rw [bound.1.current]
    exact inside
  refine flow.bind fun flow last steps backsFlow => ⟨rfl, ?_⟩
  generalize FunctionObject.isInitializer ⟨.mk name kind parameters body, closure, receiver⟩ =
    isInitializer
  cases isInitializer <;> cases receiver <;> cases flow <;>
    first
      | exact ⟨Machine.Steps.refl steps.sound, Machine.backs_instance _⟩
      | exact ⟨Machine.Steps.refl steps.sound, backsFlow _ rfl⟩
      | exact ⟨Machine.Steps.refl steps.sound, Machine.backs_nil⟩

end

/-- Calls go alike, however deep they nest. -/
theorem call_keeps {bindings : Bindings} (vouched : Vouched known bindings)
    (alarm : Guarded.Alarm) (maxDepth bound : Nat) :
    CallsAlike known bindings (Guarded.call alarm bindings maxDepth bound)
      (Exec.call bindings maxDepth bound) := by
  induction bound with
  | zero =>
      intro m _ _ sound _ _ _
      exact ⟨rfl, Machine.Steps.refl sound, blamed_of_other nofun⟩
  | succ bound ih =>
      intro m id arguments sound runs backs arity
      apply Keeps.get_bind
      have calls : CallsAlike known (Exec.context bindings maxDepth bound).bindings
          (Guarded.call alarm bindings maxDepth bound) (Exec.context bindings maxDepth bound).call :=
        ih
      exact body_keeps vouched alarm calls sound (runs id rfl).2 backs arity

/-- A program goes alike, and ends with a sound machine. -/
theorem program_keeps {bindings : Bindings} (vouched : Vouched known bindings)
    (alarm : Guarded.Alarm) (maxDepth bound : Nat) {m : Machine} (sound : m.Sound known bindings)
    {program : List Stmt} (sites : ∀ site ∈ Sites.program program, known site)
    (regular : Regular.stmts program) :
    Keeps known bindings m
      (Guarded.program alarm (Guarded.context alarm bindings maxDepth bound) program)
      (Exec.program (Exec.context bindings maxDepth bound) program) fun _ _ => True := by
  have ready : m.Ready known bindings [] := ⟨sound, Environment.covers_nil _⟩
  have calls : CallsAlike known (Exec.context bindings maxDepth bound).bindings
      (Guarded.call alarm bindings maxDepth bound) (Exec.context bindings maxDepth bound).call :=
    call_keeps vouched alarm maxDepth bound
  have runs := stmts_keeps vouched alarm calls program [] m rfl ready sites regular
  have same : Guarded.stmts alarm (Guarded.context alarm bindings maxDepth bound) program m =
      Exec.stmts (Exec.context bindings maxDepth bound) program m := runs.same
  have kept := runs.kept
  constructor
  · unfold Guarded.program Exec.program
    cases result : Exec.stmts (Exec.context bindings maxDepth bound) program m with
    | ok flow last => simp only [same, result]
    | error stop last =>
        cases flushed : Exec.flush last <;> cases stop <;> simp only [same, result, flushed]
  · cases result : Exec.stmts (Exec.context bindings maxDepth bound) program m with
    | ok flow last =>
        rw [result] at kept
        simp only [Exec.program, result, Exec.flush]
        split
        · exact ⟨kept.1, trivial⟩
        · exact ⟨kept.1, blamed_of_other nofun⟩
    | error stop last =>
        rw [result] at kept
        cases stop with
        | exhausted =>
            simp only [Exec.program, result]
            exact kept
        | error e =>
            simp only [Exec.program, result, Exec.flush]
            cases last.output.flushFailure? with
            | none => exact kept
            | some failure => exact ⟨kept.1, blamed_of_other nofun⟩

end Lox
