import Lox.Proofs.Trace.Secluded

set_option autoImplicit false

/-! Code inside of blocks, functions and expressions makes no global variable at any moment of its run. By
induction on the code, and on the bound for the functions that it calls. -/

namespace Lox

variable {α β : Type}

/-- At every moment of a traced computation the global variables are those of its first moment. -/
structure Secludes (known : Site → Prop) (r : Record) (traced : Traced α) : Prop where
  now : r.now.machine.Retains known (Outcome.state (traced r)).now.machine
  since : r.Since (fun moment => r.now.machine.Retains known moment.machine)
    (Outcome.state (traced r))

/-- A machine on which statements at the end of a path can run: if these are local, then not in the root
frame. -/
structure Machine.Placed (known : Site → Prop) (path : Path) (m : Machine) : Prop where
  secluded : m.Secluded known
  away : path.isLocal = true → m.Away

theorem Machine.Placed.after {known : Site → Prop} {path : Path} {m after : Machine}
    (placed : m.Placed known path) (retains : m.Retains known after) (stays : m.Stays after) :
    after.Placed known path :=
  ⟨retains.secluded, fun isLocal => (placed.away isLocal).stays stays⟩

theorem Tracks.stays_of_ok {limit : Nat} {r after : Record} {traced : Traced α} {plain : Exec α}
    (tracks : Tracks limit r traced plain) {a : α} (result : traced r = .ok a after) :
    r.now.machine.Stays after.now.machine := by
  have leads := tracks.leads
  rw [result] at leads
  exact leads.stays

theorem Exec.Stays.of_step {r after : Record} {plain : Exec α} (stays : plain.Stays r.now.machine)
    {a : α} (result : Traced.step plain r = .ok a after) :
    r.now.machine.Stays after.now.machine := by
  have tracks : Tracks 0 r (Traced.step plain) plain := Tracks.step stays
  exact tracks.stays_of_ok result

variable {known : Site → Prop}

namespace Secludes

variable {r : Record} {traced : Traced α}

theorem pure {a : α} (secluded : r.now.machine.Secluded known) :
    Secludes known r (return a) :=
  ⟨Machine.Retains.refl secluded, Record.Since.refl r⟩

theorem throw {stop : Stop} (secluded : r.now.machine.Secluded known) :
    Secludes known r (throw stop : Traced α) :=
  ⟨Machine.Retains.refl secluded, Record.Since.refl r⟩

theorem step {plain : Exec α} (retains : plain.Retains known r.now.machine) :
    Secludes known r (Traced.step plain) := by
  unfold Exec.Retains at retains
  cases result : plain r.now.machine with
  | ok a last =>
      rw [result] at retains
      constructor
      · simp only [Traced.step, result]
        exact retains
      · simp only [Traced.step, result]
        exact Record.Since.next retains
  | error stop last =>
      rw [result] at retains
      constructor
      · simp only [Traced.step, result]
        exact retains
      · simp only [Traced.step, result]
        exact Record.Since.next retains

theorem bind {first : α → Traced β} (one : Secludes known r traced)
    (two : ∀ a after, traced r = .ok a after → r.now.machine.Retains known after.now.machine →
      Secludes known after (first a)) :
    Secludes known r (traced >>= first) := by
  obtain ⟨now, since⟩ := one
  cases result : traced r with
  | ok a middle =>
      rw [result] at now since
      obtain ⟨last, later⟩ := two a middle result now
      constructor
      · rw [Outcome.bind_of_ok result]
        exact now.trans last
      · rw [Outcome.bind_of_ok result]
        exact since.trans (later.imp fun moment retains => now.trans retains)
  | error stop middle =>
      rw [result] at now since
      constructor
      · rw [Outcome.bind_of_error result]
        exact now
      · rw [Outcome.bind_of_error result]
        exact since

theorem map (f : α → β) (secludes : Secludes known r traced) : Secludes known r (f <$> traced) := by
  rw [map_eq_pure_bind]
  exact secludes.bind fun _ _ _ retains => pure retains.secluded

theorem machine_bind {first : Machine → Traced β} (rest : Secludes known r (first r.now.machine)) :
    Secludes known r (Traced.machine >>= first) :=
  ⟨rest.now, rest.since⟩

theorem capture_bind {first : Chain → Traced β}
    (rest : Secludes known r (first r.now.machine.environment.current)) :
    Secludes known r (Traced.capture >>= first) :=
  ⟨rest.now, rest.since⟩

theorem around (before after : Machine → Machine)
    (enters : r.now.machine.Retains known (before r.now.machine))
    (leaves : ∀ last : Machine, last.Secluded known → last.Retains known (after last))
    (inner : Secludes known (r.become (before r.now.machine)) traced) :
    Secludes known r (Traced.around before after traced) := by
  have back (last : Record)
      (now : (before r.now.machine).Retains known last.now.machine)
      (since : (r.become (before r.now.machine)).Since
        (fun moment => (before r.now.machine).Retains known moment.machine) last) :
      r.now.machine.Retains known (after last.now.machine) ∧
        r.Since (fun moment => r.now.machine.Retains known moment.machine)
          (last.become (after last.now.machine)) := by
    have all := (enters.trans now).trans (leaves last.now.machine now.secluded)
    have entered : r.Since (fun moment => r.now.machine.Retains known moment.machine)
        (r.become (before r.now.machine)) := Record.Since.next enters
    refine ⟨all, (entered.trans (since.imp fun moment retains => enters.trans retains)).trans ?_⟩
    exact Record.Since.next all
  obtain ⟨now, since⟩ := inner
  cases result : traced (r.become (before r.now.machine)) with
  | ok a last =>
      rw [result] at now since
      constructor
      · simp only [Traced.around, result]
        exact (back last now since).1
      · simp only [Traced.around, result]
        exact (back last now since).2
  | error stop last =>
      rw [result] at now since
      constructor
      · simp only [Traced.around, result]
        exact (back last now since).1
      · simp only [Traced.around, result]
        exact (back last now since).2

theorem within (secluded : r.now.machine.Secluded known) (chain : Chain)
    (inner : Secludes known (r.become { r.now.machine with
      environment := r.now.machine.environment.graft chain }) traced) :
    Secludes known r (Traced.within chain traced) := by
  have both := around (fun m => { m with environment := m.environment.graft chain })
    (fun m => { m with
      environment := m.environment.restore r.now.machine.environment.current })
    (secluded.graft chain) (fun _ last => ⟨last.of_eq rfl rfl rfl, rfl⟩) inner
  exact ⟨both.now, both.since⟩

theorem deeper (secluded : r.now.machine.Secluded known)
    (inner : Secludes known (r.become { r.now.machine with depth := r.now.machine.depth + 1 })
      traced) :
    Secludes known r (Traced.deeper traced) :=
  around _ _ (secluded.retains rfl rfl) (fun _ last => last.retains rfl rfl) inner

/-- A loop whose test and rounds keep what they need. -/
theorem repeatWhile {test : Traced Bool} {round : Traced Flow} (good : Machine → Prop)
    (secluded : ∀ m, good m → m.Secluded known)
    (tests : ∀ r : Record, good r.now.machine → Secludes known r test ∧
      ∀ a after, test r = .ok a after → good after.now.machine)
    (runs : ∀ r : Record, good r.now.machine → Secludes known r round ∧
      ∀ a after, round r = .ok a after → good after.now.machine)
    (rounds : Nat) (r : Record) (isGood : good r.now.machine) :
    Secludes known r (Traced.repeatWhile test round rounds) := by
  induction rounds generalizing r with
  | zero => exact throw (secluded _ isGood)
  | succ rounds ih =>
      obtain ⟨first, still⟩ := tests r isGood
      apply first.bind
      intro holds tested result _
      have goodTested := still holds tested result
      cases holds with
      | false => exact pure (secluded _ goodTested)
      | true =>
          obtain ⟨second, stillRun⟩ := runs tested goodTested
          apply second.bind
          intro flow last ran _
          have goodLast := stillRun flow last ran
          cases flow with
          | normal => exact ih last goodLast
          | returned value => exact pure (secluded _ goodLast)

end Secludes

namespace Traced

set_option linter.unusedSectionVars false

/-- No call makes a global variable. -/
def Discreet (known : Site → Prop) (call : Calls) : Prop :=
  ∀ id arguments (r : Record), r.now.machine.Secluded known →
    Secludes known r (call id arguments)

variable {ctx : Context} {call : Calls}
  (vouched : ∀ site, known site → site.Bound ctx.bindings) (calls : Follows ctx call)
  (secludes : Discreet known call)
include vouched calls secludes

theorem callFunction_secludes (id : FunctionId) (arguments : List Value) (paren : Token)
    (r : Record) (secluded : r.now.machine.Secluded known) :
    Secludes known r (callFunction ctx call id arguments paren) := by
  unfold callFunction
  apply Secludes.machine_bind
  split
  · exact Secludes.step (Exec.retains_fail secluded _ _)
  · exact secludes id arguments r secluded

theorem construct_secludes (id : ClassId) (arguments : List Value) (paren : Token) (r : Record)
    (secluded : r.now.machine.Secluded known) :
    Secludes known r (construct ctx call id arguments paren) := by
  unfold construct
  apply Secludes.machine_bind
  apply Secludes.machine_bind
  apply Secludes.machine_bind
  apply (Secludes.step (Exec.retains_checkArity secluded _ _ _)).bind
  intro _ checked _ one
  apply (Secludes.step (one.secluded.retains rfl rfl)).bind
  intro fresh made _ two
  cases r.now.machine.initializer? (r.now.machine.classAt id) with
  | none => exact Secludes.pure two.secluded
  | some f =>
      cases (r.now.machine.classAt id).thisSlot with
      | none => exact Secludes.pure two.secluded
      | some slot =>
          apply (Secludes.step (Exec.retains_bindFunction two.secluded f fresh slot)).bind
          intro bound taken _ three
          apply (callFunction_secludes vouched calls secludes _ _ _ taken three.secluded).bind
          intro _ _ _ four
          exact Secludes.pure four.secluded

theorem invoke_secludes (callee : Value) (arguments : List Value) (paren : Token) (r : Record)
    (secluded : r.now.machine.Secluded known) :
    Secludes known r (invoke ctx call callee arguments paren) := by
  cases callee with
  | function id =>
      apply Secludes.machine_bind
      apply (Secludes.step (Exec.retains_checkArity secluded _ _ _)).bind
      intro _ checked _ one
      exact callFunction_secludes vouched calls secludes id arguments paren checked one.secluded
  | «class» id => exact construct_secludes vouched calls secludes id arguments paren r secluded
  | _ => exact Secludes.step (Exec.retains_fail secluded _ _)

omit vouched calls secludes in
theorem makeClass_secludes (id : NodeId) (name : Token) (thisId : NodeId) (path : Path)
    (methodDecls : List FunctionDecl) (sites : ∀ site ∈ Sites.methods path methodDecls, known site)
    (regular : Regular.functions methodDecls) (members : Table String Value) (r : Record)
    (secluded : r.now.machine.Secluded known) :
    Secludes known r (makeClass ctx id name thisId methodDecls members) := by
  apply Secludes.capture_bind
  apply (Secludes.step (Exec.retains_addMethods secluded path _ _ sites regular _)).bind
  intro members added _ one
  apply (Secludes.step (one.secluded.retains rfl rfl)).bind
  intro made built _ two
  apply (Secludes.step (Exec.retains_store ctx two.secluded _ _ _)).bind
  intro _ stored _ three
  exact Secludes.pure three.secluded

omit calls secludes in
/-- A declaration that stands at the end of a local path has a slot. -/
theorem declare_secludes {path : Path} {id : NodeId} {name : Token} {r : Record}
    (isKnown : known ⟨path, .declaration id name⟩) (isLocal : path.isLocal = true)
    (placed : r.now.machine.Placed known path) (value : Value) :
    Secludes known r (step (Exec.declare ctx id name value)) := by
  have bound : (ctx.bindings.slot? id).isSome = path.isLocal := vouched _ isKnown
  rw [isLocal] at bound
  exact Secludes.step
    (Exec.retains_declare ctx placed.secluded (placed.away isLocal) name value bound)

mutual

theorem expr_secludes : ∀ (e : Expr) (path : Path) (r : Record),
    (∀ site ∈ Sites.expr path e, known site) → Regular.expr e →
    r.now.machine.Secluded known → Secludes known r (expr ctx call e)
  | .literal _, _, _, _, _, secluded => Secludes.pure secluded
  | .unary _ right, path, r, sites, regular, secluded =>
      (expr_secludes right path r sites regular secluded).bind fun _ _ _ one =>
        Secludes.step (Exec.retains_ofOperator one.secluded _ _)
  | .binary left _ right, path, r, sites, regular, secluded => by
      have parts := List.forall_mem_append.mp sites
      apply (expr_secludes left path r parts.1 regular.1 secluded).bind
      intro _ middle _ one
      apply (expr_secludes right path middle parts.2 regular.2 one.secluded).bind
      intro _ _ _ two
      exact Secludes.step (Exec.retains_ofOperator two.secluded _ _)
  | .logical left _ right, path, r, sites, regular, secluded => by
      have parts := List.forall_mem_append.mp sites
      apply (expr_secludes left path r parts.1 regular.1 secluded).bind
      intro _ middle _ one
      split
      · exact Secludes.pure one.secluded
      · exact expr_secludes right path middle parts.2 regular.2 one.secluded
  | .ternary condition thenBranch elseBranch, path, r, sites, regular, secluded => by
      have parts := List.forall_mem_append.mp sites
      have first := List.forall_mem_append.mp parts.1
      apply (expr_secludes condition path r first.1 regular.1 secluded).bind
      intro _ middle _ one
      split
      · exact expr_secludes thenBranch path middle first.2 regular.2.1 one.secluded
      · exact expr_secludes elseBranch path middle parts.2 regular.2.2 one.secluded
  | .grouping inner, path, r, sites, regular, secluded =>
      expr_secludes inner path r sites regular secluded
  | .variable _ _, _, _, _, _, secluded => Secludes.step (Exec.retains_lookUp ctx secluded _ _)
  | .assign _ _ value, path, r, sites, regular, secluded => by
      have parts := List.forall_mem_append.mp sites
      apply (expr_secludes value path r parts.1 regular.2 secluded).bind
      intro _ _ _ one
      apply (Secludes.step (Exec.retains_store ctx one.secluded _ _ _)).bind
      intro _ _ _ two
      exact Secludes.pure two.secluded
  | .call callee paren arguments, path, r, sites, regular, secluded => by
      have parts := List.forall_mem_append.mp sites
      apply (expr_secludes callee path r parts.1 regular.1 secluded).bind
      intro _ middle _ one
      apply (exprs_secludes arguments path middle parts.2 regular.2 one.secluded).bind
      intro _ last _ two
      exact invoke_secludes vouched calls secludes _ _ paren last two.secluded
  | .function _, path, _, sites, regular, secluded =>
      Secludes.step (Exec.retains_close secluded ⟨path, .function, sites, regular⟩)
  | .get object _, path, r, sites, regular, secluded =>
      (expr_secludes object path r sites regular secluded).bind fun _ _ _ one =>
        Secludes.step (Exec.retains_getProperty one.secluded _ _)
  | .set object _ value, path, r, sites, regular, secluded => by
      have parts := List.forall_mem_append.mp sites
      apply (expr_secludes object path r parts.2 regular.1 secluded).bind
      intro _ _ _ one
      apply (Secludes.step (Exec.retains_receiver one.secluded _ _)).bind
      intro _ middle _ two
      apply (expr_secludes value path middle parts.1 regular.2 two.secluded).bind
      intro _ _ _ three
      apply (Secludes.step (three.secluded.retains rfl rfl)).bind
      intro _ _ _ four
      exact Secludes.pure four.secluded
  | .this _ _, _, _, _, _, secluded => Secludes.step (Exec.retains_lookUp ctx secluded _ _)

theorem exprs_secludes : ∀ (es : List Expr) (path : Path) (r : Record),
    (∀ site ∈ Sites.exprs path es, known site) → Regular.exprs es →
    r.now.machine.Secluded known → Secludes known r (exprs ctx call es)
  | [], _, _, _, _, secluded => Secludes.pure secluded
  | e :: rest, path, r, sites, regular, secluded => by
      have parts := List.forall_mem_append.mp sites
      apply (expr_secludes e path r parts.1 regular.1 secluded).bind
      intro _ middle _ one
      apply (exprs_secludes rest path middle parts.2 regular.2 one.secluded).bind
      intro _ _ _ two
      exact Secludes.pure two.secluded

theorem stmt_secludes : ∀ (s : Stmt) (path : Path) (r : Record),
    (s.declared = [] ∨ path.isLocal = true) → (∀ site ∈ Sites.stmt path s, known site) →
    Regular.stmt s → r.now.machine.Placed known path → Secludes known r (stmt ctx call s)
  | .expression value, path, r, _, sites, regular, placed =>
      (expr_secludes value path r sites regular placed.secluded).bind fun _ _ _ one =>
        Secludes.pure one.secluded
  | .print value, path, r, _, sites, regular, placed => by
      apply (expr_secludes value path r sites regular placed.secluded).bind
      intro _ _ _ one
      apply (Secludes.step (Exec.retains_print one.secluded _)).bind
      intro _ _ _ two
      exact Secludes.pure two.secluded
  | .var id name none, path, r, within, sites, _, placed => by
      have isLocal := within.resolve_left (List.cons_ne_nil _ _)
      apply (declare_secludes vouched (sites _ List.mem_cons_self) isLocal placed _).bind
      intro _ _ _ one
      exact Secludes.pure one.secluded
  | .var id name (some initial), path, r, within, sites, regular, placed => by
      have isLocal := within.resolve_left (List.cons_ne_nil _ _)
      have inside : ∀ site ∈ Sites.expr (.initializer id name :: path) initial, known site :=
        fun site member => sites site (List.mem_cons_of_mem _ member)
      apply (expr_secludes initial _ r inside regular.2 placed.secluded).bind
      intro value middle result one
      have there := placed.after one ((expr_tracks calls initial r).stays_of_ok result)
      apply (declare_secludes vouched (sites _ List.mem_cons_self) isLocal there _).bind
      intro _ _ _ two
      exact Secludes.pure two.secluded
  | .block body, path, r, _, sites, regular, placed => by
      apply Secludes.capture_bind
      apply Secludes.within placed.secluded
      exact stmts_secludes body (.block [] :: path) _ rfl sites regular
        ⟨(placed.secluded.graft _).secluded, fun _ => placed.secluded.away_graft _⟩
  | .branch condition thenBranch none, path, r, _, sites, regular, placed => by
      have parts := List.forall_mem_append.mp sites
      apply (expr_secludes condition path r parts.1 regular.1 placed.secluded).bind
      intro _ middle result one
      have there := placed.after one ((expr_tracks calls condition r).stays_of_ok result)
      split
      · exact stmt_secludes thenBranch path middle (.inl regular.2.2) parts.2 regular.2.1 there
      · exact Secludes.pure one.secluded
  | .branch condition thenBranch (some elseBranch), path, r, _, sites, regular, placed => by
      have parts := List.forall_mem_append.mp sites
      have first := List.forall_mem_append.mp parts.1
      apply (expr_secludes condition path r first.1 regular.1 placed.secluded).bind
      intro _ middle result one
      have there := placed.after one ((expr_tracks calls condition r).stays_of_ok result)
      split
      · exact stmt_secludes thenBranch path middle (.inl regular.2.1.2) first.2 regular.2.1.1 there
      · apply stmt_secludes elseBranch (path.past thenBranch) middle (.inl regular.2.2.2) parts.2
          regular.2.2.1
        refine ⟨there.secluded, fun isLocal => there.away ?_⟩
        rw [Path.isLocal_past] at isLocal
        exact isLocal
  | .loop condition body, path, r, _, sites, regular, placed => by
      have parts := List.forall_mem_append.mp sites
      apply Secludes.repeatWhile (·.Placed known path) (fun _ there => there.secluded)
      · intro r there
        have test := expr_secludes condition path r parts.1 regular.1 there.secluded
        refine ⟨test.map _, fun holds after result => ?_⟩
        have tracks := (expr_tracks calls condition r).map Value.isTruthy
        have last := (test.map Value.isTruthy).now
        rw [result] at last
        exact there.after last (tracks.stays_of_ok result)
      · intro r there
        have round := stmt_secludes body path r (.inl regular.2.2) parts.2 regular.2.1 there
        refine ⟨round, fun flow after result => ?_⟩
        have last := round.now
        rw [result] at last
        exact there.after last ((stmt_tracks calls body r).stays_of_ok result)
      · exact placed
  | .function id name decl, path, r, within, sites, regular, placed => by
      have isLocal := within.resolve_left (List.cons_ne_nil _ _)
      have inside : ∀ site ∈ Sites.function .function (.own id name :: path) decl, known site :=
        fun site member => sites site (List.mem_cons_of_mem _ member)
      apply (Secludes.step (Exec.retains_close placed.secluded
        ⟨.own id name :: path, .function, inside, regular.2⟩)).bind
      intro value middle result one
      have closes : (Exec.close decl).Stays r.now.machine := ⟨rfl, rfl, rfl⟩
      have there := placed.after one (closes.of_step result)
      apply (declare_secludes vouched (sites _ List.mem_cons_self) isLocal there _).bind
      intro _ _ _ two
      exact Secludes.pure two.secluded
  | .ret _ none, _, _, _, _, _, placed => Secludes.pure placed.secluded
  | .ret _ (some value), path, r, _, sites, regular, placed => by
      have inside : ∀ site ∈ Sites.expr path value, known site :=
        fun site member => sites site (List.mem_cons_of_mem _ member)
      apply (expr_secludes value path r inside regular placed.secluded).bind
      intro _ _ _ one
      exact Secludes.pure one.secluded
  | .class id name thisId fieldDecls methodDecls, path, r, within, sites, regular, placed => by
      have isLocal := within.resolve_left (List.cons_ne_nil _ _)
      have inside := (List.forall_mem_append.mp fun site member =>
        sites site (List.mem_cons_of_mem _ member)).2
      have parts := List.forall_mem_append.mp fun site member =>
        inside site (List.mem_cons_of_mem _ member)
      apply (declare_secludes vouched (sites _ List.mem_cons_self) isLocal placed _).bind
      intro _ declared _ one
      apply (fields_secludes fieldDecls _ Table.empty declared parts.1 regular.2.1
        one.secluded).bind
      intro members filled _ two
      exact makeClass_secludes id name thisId _ methodDecls parts.2 regular.2.2 members filled
        two.secluded

theorem stmts_secludes : ∀ (ss : List Stmt) (path : Path) (r : Record),
    path.isLocal = true → (∀ site ∈ Sites.stmts path ss, known site) → Regular.stmts ss →
    r.now.machine.Placed known path → Secludes known r (stmts ctx call ss)
  | [], _, _, _, _, _, placed => Secludes.pure placed.secluded
  | s :: rest, path, r, isLocal, sites, regular, placed => by
      have parts := List.forall_mem_append.mp sites
      apply (stmt_secludes s path r (.inr isLocal) parts.1 regular.1 placed).bind
      intro flow middle result one
      have there := placed.after one ((stmt_tracks calls s r).stays_of_ok result)
      cases flow with
      | normal =>
          apply stmts_secludes rest (path.past s) middle (Path.isLocal_past.trans isLocal) parts.2
            regular.2
          exact ⟨there.secluded, fun _ => there.away isLocal⟩
      | returned value => exact Secludes.pure one.secluded

theorem fields_secludes : ∀ (decls : List FieldDecl) (path : Path) (members : Table String Value)
    (r : Record), (∀ site ∈ Sites.fields path decls, known site) → Regular.fields decls →
    r.now.machine.Secluded known → Secludes known r (fields ctx call members decls)
  | [], _, _, _, _, _, secluded => Secludes.pure secluded
  | .mk _ none :: rest, path, _, r, sites, regular, secluded =>
      fields_secludes rest path _ r sites regular secluded
  | .mk _ (some initial) :: rest, path, _, r, sites, regular, secluded => by
      have parts := List.forall_mem_append.mp sites
      apply (expr_secludes initial path r parts.1 regular.1 secluded).bind
      intro _ middle _ one
      exact fields_secludes rest path _ middle parts.2 regular.2 one.secluded

end

theorem body_secludes {object : FunctionObject} (arguments : List Value) (r : Record)
    (secluded : r.now.machine.Secluded known) (isKnown : object.Known known) :
    Secludes known r (body ctx call object arguments) := by
  obtain ⟨⟨name, kind, parameters, statements⟩, closure, receiver⟩ := object
  obtain ⟨path, role, sites, regular⟩ := isKnown
  have parts := List.forall_mem_append.mp sites
  have deep : r.now.machine.Retains known
      { r.now.machine with depth := r.now.machine.depth + 1 } := secluded.retains rfl rfl
  have runs : Secludes known r
      (deeper <| within closure do
        step <| modify fun m => { m with
          environment := Exec.bindParams ctx.bindings m.environment parameters arguments }
        stmts ctx call statements) := by
    apply Secludes.deeper secluded
    apply Secludes.within deep.secluded
    have grafted := deep.secluded.graft closure
    have away := deep.secluded.away_graft closure
    apply (Secludes.step (Exec.retains_bindParams grafted.secluded away _ _ _)).bind
    intro _ bound result one
    have stays := (Exec.stays_bindParams ctx.bindings parameters arguments).of_step result
    exact stmts_secludes vouched calls secludes statements (.function role parameters.reverse [] :: path) bound rfl
      parts.2 regular.2 ⟨one.secluded, fun _ => away.stays stays⟩
  apply runs.bind
  intro flow last _ one
  dsimp only
  cases FunctionObject.isInitializer ⟨.mk name kind parameters statements, closure, receiver⟩ <;>
    cases receiver <;> cases flow <;> exact Secludes.pure one.secluded

end Traced

/-- Functions make no global variable, however deep their calls nest. -/
theorem Traced.discreet_calls {bindings : Bindings}
    (vouched : ∀ site, known site → site.Bound bindings) (maxDepth bound : Nat) :
    Discreet known (Traced.calls bindings maxDepth bound) := by
  induction bound with
  | zero => exact fun _ _ _ secluded => Secludes.throw secluded
  | succ bound ih =>
      intro id arguments r secluded
      have follows := Traced.follows_calls bindings maxDepth bound
      apply Secludes.machine_bind
      exact body_secludes vouched follows ih arguments r secluded (secluded.functions id)

end Lox
