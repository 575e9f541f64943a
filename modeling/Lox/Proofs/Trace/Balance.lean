import Lox.Proofs.Trace.Record

set_option autoImplicit false

/-! What every part of a program owes the code around it, whatever its outcome: it leaves the chain of
frames and the depth of calls as they were, and on the way no moment is deeper than calls may nest. The
record changes nothing: the recording interpreter and the interpreter end alike. By induction on the
code, and on the bound for the functions that it calls. -/

namespace Lox

variable {α β : Type}

/-- The chain of frames, the outermost one, and the depth of calls are as they were. -/
structure Machine.Stays (m after : Machine) : Prop where
  current : after.environment.current = m.environment.current
  root : after.environment.root = m.environment.root
  depth : after.depth = m.depth

theorem Machine.Stays.refl (m : Machine) : m.Stays m :=
  ⟨rfl, rfl, rfl⟩

theorem Machine.Stays.trans {first second third : Machine} (one : first.Stays second)
    (two : second.Stays third) : first.Stays third :=
  ⟨two.current.trans one.current, two.root.trans one.root, two.depth.trans one.depth⟩

namespace Record

/-- All moments that a record has beyond those of another have some property. -/
def Since (good : Moment → Prop) (r after : Record) : Prop :=
  ∃ later, after.moments = later ++ r.moments ∧ ∀ moment ∈ later, good moment

variable {good better : Moment → Prop} {r middle after : Record}

theorem Since.refl (r : Record) : r.Since good r :=
  ⟨[], rfl, nofun⟩

theorem Since.next {moment : Moment} (isGood : good moment) : r.Since good (r.next moment) := by
  refine ⟨[moment], rfl, fun other member => ?_⟩
  rw [List.mem_singleton.mp member]
  exact isGood

theorem Since.trans (one : r.Since good middle) (two : middle.Since good after) :
    r.Since good after := by
  obtain ⟨earlier, first, goodEarlier⟩ := one
  obtain ⟨later, second, goodLater⟩ := two
  refine ⟨later ++ earlier, ?_, fun moment member => ?_⟩
  · rw [second, first, List.append_assoc]
  · rcases List.mem_append.mp member with late | early
    · exact goodLater moment late
    · exact goodEarlier moment early

theorem Since.imp (since : r.Since good after) (improves : ∀ moment, good moment → better moment) :
    r.Since better after := by
  obtain ⟨later, same, isGood⟩ := since
  exact ⟨later, same, fun moment member => improves moment (isGood moment member)⟩

/-- A property that all moments of a record have, and all that it has beyond those. -/
theorem Since.all (since : r.Since good after) (before : ∀ moment ∈ r.moments, good moment) :
    ∀ moment ∈ after.moments, good moment := by
  obtain ⟨later, same, isGood⟩ := since
  intro moment member
  rw [same] at member
  rcases List.mem_append.mp member with late | early
  · exact isGood moment late
  · exact before moment early

/-- A moment among those of some code that is not outermost. -/
def Inside (limit : Nat) (r : Record) (moment : Moment) : Prop :=
  moment.declared = r.now.declared ∧
    (r.now.machine.depth ≤ limit → moment.machine.depth ≤ limit)

/-- A record at the end of some code that is not outermost. -/
structure Leads (limit : Nat) (r after : Record) : Prop where
  stays : r.now.machine.Stays after.now.machine
  declared : after.now.declared = r.now.declared
  since : r.Since (r.Inside limit) after

variable {limit : Nat}

theorem Leads.refl (r : Record) : r.Leads limit r :=
  ⟨Machine.Stays.refl _, rfl, Since.refl r⟩

theorem Leads.trans (one : r.Leads limit middle) (two : middle.Leads limit after) :
    r.Leads limit after := by
  refine ⟨one.stays.trans two.stays, two.declared.trans one.declared,
    one.since.trans (two.since.imp ?_)⟩
  rintro moment ⟨declared, bounded⟩
  rw [one.stays.depth] at bounded
  exact ⟨declared.trans one.declared, bounded⟩

theorem leads_become {m : Machine} (stays : r.now.machine.Stays m) :
    r.Leads limit (r.become m) :=
  ⟨stays, rfl, Since.next ⟨rfl, fun bounded => stays.depth ▸ bounded⟩⟩

end Record

/-- A result without the record. -/
def Traced.forget : EStateM.Result Stop Record α → EStateM.Result Stop Machine α
  | .ok a r => .ok a r.now.machine
  | .error stop r => .error stop r.now.machine

theorem Traced.state_forget (result : EStateM.Result Stop Record α) :
    Outcome.state (Traced.forget result) = (Outcome.state result).now.machine := by
  cases result <;> rfl

/-- The recording interpreter and the interpreter end alike, and the record leads on. -/
structure Tracks (limit : Nat) (r : Record) (traced : Traced α) (plain : Exec α) : Prop where
  same : Traced.forget (traced r) = plain r.now.machine
  leads : r.Leads limit (Outcome.state (traced r))

/-- Whatever its outcome, a plain computation leaves the chain and the depth as they were. -/
def Exec.Stays (m : Machine) (plain : Exec α) : Prop :=
  m.Stays (Outcome.state (plain m))

/-- Takes a step before a body and another one after it, whatever its outcome. -/
def Exec.around (before after : Machine → Machine) (body : Exec α) : Exec α := fun m =>
  match body (before m) with
  | .ok a m => .ok a (after m)
  | .error stop m => .error stop (after m)

namespace Tracks

variable {limit : Nat} {r : Record} {traced : Traced α} {plain : Exec α}

theorem pure {a : α} : Tracks limit r (return a) (return a) :=
  ⟨rfl, Record.Leads.refl r⟩

theorem throw {stop : Stop} : Tracks limit r (throw stop : Traced α) (throw stop) :=
  ⟨rfl, Record.Leads.refl r⟩

theorem step (stays : plain.Stays r.now.machine) : Tracks limit r (Traced.step plain) plain := by
  unfold Exec.Stays at stays
  cases result : plain r.now.machine with
  | ok a last =>
      rw [result] at stays
      constructor
      · simp only [Traced.step, result, Traced.forget, Record.become, Record.next]
      · simp only [Traced.step, result]
        exact Record.leads_become stays
  | error stop last =>
      rw [result] at stays
      constructor
      · simp only [Traced.step, result, Traced.forget, Record.become, Record.next]
      · simp only [Traced.step, result]
        exact Record.leads_become stays

theorem bind {first : α → Traced β} {second : α → Exec β} (one : Tracks limit r traced plain)
    (two : ∀ a after, r.Leads limit after → Tracks limit after (first a) (second a)) :
    Tracks limit r (traced >>= first) (plain >>= second) := by
  obtain ⟨same, leads⟩ := one
  cases result : traced r with
  | ok a middle =>
      rw [result] at same leads
      obtain ⟨alike, more⟩ := two a middle leads
      constructor
      · rw [Outcome.bind_of_ok result, Outcome.bind_of_ok same.symm]
        exact alike
      · rw [Outcome.bind_of_ok result]
        exact leads.trans more
  | error stop middle =>
      rw [result] at same leads
      constructor
      · rw [Outcome.bind_of_error result, Outcome.bind_of_error same.symm]
        rfl
      · rw [Outcome.bind_of_error result]
        exact leads

theorem map (f : α → β) (tracks : Tracks limit r traced plain) :
    Tracks limit r (f <$> traced) (f <$> plain) := by
  rw [map_eq_pure_bind, map_eq_pure_bind]
  exact tracks.bind fun _ _ _ => pure

theorem stays (tracks : Tracks limit r traced plain) : plain.Stays r.now.machine := by
  unfold Exec.Stays
  rw [← tracks.same, Traced.state_forget]
  exact tracks.leads.stays

/-- No moment of a record is deeper than calls may nest, if the first one is not. -/
theorem bounded_of_start {m : Machine} {declared : List String} (shallow : m.depth ≤ limit)
    (tracks : Tracks limit (.start m declared) traced plain) :
    ∀ moment ∈ (Outcome.state (traced (.start m declared))).moments,
      moment.machine.depth ≤ limit := by
  apply (tracks.leads.since.imp fun moment inside => inside.2 shallow).all
  intro moment member
  rw [List.mem_singleton.mp member]
  exact shallow

theorem machine_bind {first : Machine → Traced β} {second : Machine → Exec β}
    (rest : Tracks limit r (first r.now.machine) (second r.now.machine)) :
    Tracks limit r (Traced.machine >>= first) (get >>= second) :=
  ⟨rest.same, rest.leads⟩

theorem capture_bind {first : Chain → Traced β} {second : Chain → Exec β}
    (rest : Tracks limit r (first r.now.machine.environment.current)
      (second r.now.machine.environment.current)) :
    Tracks limit r (Traced.capture >>= first) (Exec.capture >>= second) :=
  ⟨rest.same, rest.leads⟩

theorem around (before after : Machine → Machine)
    (inner : Tracks limit (r.become (before r.now.machine)) traced plain)
    (enters : r.now.machine.depth ≤ limit → (before r.now.machine).depth ≤ limit)
    (leaves : ∀ last, (before r.now.machine).Stays last → r.now.machine.Stays (after last)) :
    Tracks limit r (Traced.around before after traced) (Exec.around before after plain) := by
  obtain ⟨same, leads⟩ := inner
  have back (last : Record) (led : (r.become (before r.now.machine)).Leads limit last) :
      r.Leads limit (last.become (after last.now.machine)) := by
    have stays := leaves last.now.machine led.stays
    refine ⟨stays, led.declared, ?_⟩
    have entered : r.Since (r.Inside limit) (r.become (before r.now.machine)) :=
      Record.Since.next ⟨rfl, enters⟩
    have inner : (r.become (before r.now.machine)).Since (r.Inside limit) last :=
      led.since.imp fun moment inside => ⟨inside.1, fun bounded => inside.2 (enters bounded)⟩
    refine (entered.trans inner).trans (Record.Since.next ⟨led.declared, fun bounded => ?_⟩)
    exact stays.depth ▸ bounded
  cases result : traced (r.become (before r.now.machine)) with
  | ok a last =>
      rw [result] at same leads
      have alike : plain (before r.now.machine) = .ok a last.now.machine := same.symm
      constructor
      · simp only [Traced.around, Exec.around, result, alike]
        rfl
      · simp only [Traced.around, result]
        exact back last leads
  | error stop last =>
      rw [result] at same leads
      have alike : plain (before r.now.machine) = .error stop last.now.machine := same.symm
      constructor
      · simp only [Traced.around, Exec.around, result, alike]
        rfl
      · simp only [Traced.around, result]
        exact back last leads

theorem within (chain : Chain)
    (inner : Tracks limit (r.become { r.now.machine with
      environment := r.now.machine.environment.graft chain }) traced plain) :
    Tracks limit r (Traced.within chain traced) (Exec.within chain plain) := by
  have both := around (fun m => { m with environment := m.environment.graft chain })
    (fun m => { m with
      environment := m.environment.restore r.now.machine.environment.current })
    inner id fun _ stays => ⟨rfl, stays.root, stays.depth⟩
  exact ⟨both.same, both.leads⟩

/-- A call goes one level deeper if there is room for it. -/
theorem deeper (room : r.now.machine.depth < limit)
    (inner : Tracks limit (r.become { r.now.machine with depth := r.now.machine.depth + 1 })
      traced plain) :
    Tracks limit r (Traced.deeper traced) (Exec.deeper plain) := by
  have both := around (fun m => { m with depth := m.depth + 1 })
    (fun m => { m with depth := m.depth - 1 }) inner (fun _ => room)
    fun last stays => ⟨stays.current, stays.root, congrArg (· - 1) stays.depth⟩
  exact ⟨both.same, both.leads⟩

theorem repeatWhile {test : Traced Bool} {plainTest : Exec Bool} {round : Traced Flow}
    {plainRound : Exec Flow} (tests : ∀ r, Tracks limit r test plainTest)
    (runs : ∀ r, Tracks limit r round plainRound) (rounds : Nat) (r : Record) :
    Tracks limit r (Traced.repeatWhile test round rounds)
      (Exec.repeatWhile plainTest plainRound rounds) := by
  induction rounds generalizing r with
  | zero => exact throw
  | succ rounds ih =>
      rw [Exec.repeatWhile_succ]
      apply (tests r).bind
      intro holds tested _
      cases holds with
      | false => exact pure
      | true =>
          apply (runs tested).bind
          intro flow last _
          cases flow with
          | normal => exact ih last
          | returned value => exact pure

end Tracks

namespace Exec

variable {m : Machine}

theorem stays_pure {a : α} : Stays m (return a) :=
  ⟨rfl, rfl, rfl⟩

theorem stays_fail (fault : RuntimeFault) (token : Token) : Stays m (fail fault token : Exec α) :=
  ⟨rfl, rfl, rfl⟩

theorem stays_ofOperator (token : Token) (result : Except RuntimeFault Value) :
    Stays m (ofOperator token result) := by
  cases result <;> exact ⟨rfl, rfl, rfl⟩

theorem stays_print (value : Value) : Stays m (print value) := by
  change Stays m (write (m.text value ++ "\n"))
  unfold Stays write
  cases m.output.failure? (m.text value ++ "\n") <;> exact ⟨rfl, rfl, rfl⟩

theorem stays_declare (ctx : Context) (id : NodeId) (name : Token) (value : Value) :
    Stays m (declare ctx id name value) := by
  unfold Stays declare
  cases ctx.bindings.slot? id <;> exact ⟨rfl, rfl, rfl⟩

theorem stays_store (ctx : Context) (id : NodeId) (name : Token) (value : Value) :
    Stays m (store ctx id name value) := by
  unfold Stays store
  cases ctx.bindings.slot? id with
  | some slot =>
      dsimp only
      cases m.environment.find? m.environment.current slot <;> exact ⟨rfl, rfl, rfl⟩
  | none =>
      dsimp only
      cases m.environment.globals.contains name.lexeme <;> exact ⟨rfl, rfl, rfl⟩

theorem lookUp_state (ctx : Context) (id : NodeId) (name : Token) (m : Machine) :
    Outcome.state (lookUp ctx id name m) = m := by
  unfold lookUp
  dsimp only
  split <;> rfl

theorem stays_lookUp (ctx : Context) (id : NodeId) (name : Token) :
    Stays m (lookUp ctx id name) := by
  unfold Stays
  rw [lookUp_state]
  exact Machine.Stays.refl m

theorem stays_getProperty (object : Value) (name : Token) : Stays m (getProperty object name) := by
  have kept (id : InstanceId) (name : String) : m.Stays (m.getProperty id name).2 := by
    unfold Machine.getProperty
    dsimp only
    split
    · exact ⟨rfl, rfl, rfl⟩
    · split <;> exact ⟨rfl, rfl, rfl⟩
  unfold Stays getProperty
  cases object with
  | «instance» id =>
      dsimp only
      have stays := kept id name.lexeme
      split
      · next found => rw [found] at stays; exact stays
      · next found => rw [found] at stays; exact stays
  | _ => exact ⟨rfl, rfl, rfl⟩

theorem stays_receiver (object : Value) (name : Token) : Stays m (receiver object name) := by
  cases object <;> exact ⟨rfl, rfl, rfl⟩

theorem stays_checkArity (expected found : Nat) (paren : Token) :
    Stays m (checkArity expected found paren) := by
  unfold checkArity
  split
  · exact stays_pure
  · exact stays_fail _ _

theorem addMethods_state (closure : Chain) (decls : List FunctionDecl)
    (members : Table String Value) (m : Machine) :
    ∃ functions, Outcome.state (addMethods closure members decls m) =
      { m with functions := m.functions ++ functions } := by
  induction decls generalizing members m with
  | nil => exact ⟨#[], by simp only [Array.append_empty]; rfl⟩
  | cons method rest ih =>
      unfold addMethods
      cases method.name with
      | none => exact ih members m
      | some name =>
          obtain ⟨functions, same⟩ := ih (members.insert name.lexeme (.function m.functions.size))
            (m.addFunction ⟨method, closure, none⟩).2
          refine ⟨#[⟨method, closure, none⟩] ++ functions, same.trans ?_⟩
          simp only [Machine.addFunction, Array.push_eq_append, Array.append_assoc]

theorem stays_addMethods (closure : Chain) (members : Table String Value)
    (decls : List FunctionDecl) : Stays m (addMethods closure members decls) := by
  obtain ⟨functions, same⟩ := addMethods_state closure decls members m
  unfold Stays
  rw [same]
  exact ⟨rfl, rfl, rfl⟩

theorem flush_state (m : Machine) : Outcome.state (flush m) = m := by
  unfold flush
  cases m.output.flushFailure? <;> rfl

theorem stays_flush : Stays m flush := by
  unfold Stays
  rw [flush_state]
  exact Machine.Stays.refl m

/-- Parameters live in frames. -/
theorem bindParams_eq (bindings : Bindings) (params : List Param) (values : List Value)
    (env : Environment) :
    ∃ frames, bindParams bindings env params values = { env with frames := frames } := by
  induction params generalizing values env with
  | nil => exact ⟨env.frames, rfl⟩
  | cons param rest ih =>
      cases values with
      | nil => exact ⟨env.frames, rfl⟩
      | cons value values =>
          unfold bindParams
          cases bindings.slot? param.id with
          | some slot => exact ih values (env.define slot value)
          | none => exact ih values env

theorem stays_bindParams (bindings : Bindings) (params : List Param) (values : List Value) :
    Stays m (modify fun m : Machine =>
      { m with environment := bindParams bindings m.environment params values }) := by
  obtain ⟨frames, same⟩ := bindParams_eq bindings params values m.environment
  change m.Stays { m with environment := bindParams bindings m.environment params values }
  rw [same]
  exact ⟨rfl, rfl, rfl⟩

end Exec

set_option linter.unusedSectionVars false

namespace Traced

/-- Wherever there is room for a call, it is recorded and keeps the balance. -/
def Follows (ctx : Context) (call : Calls) : Prop :=
  ∀ id arguments (r : Record), r.now.machine.depth < ctx.maxDepth →
    Tracks ctx.maxDepth r (call id arguments) (ctx.call id arguments)

variable {ctx : Context} {call : Calls} (calls : Follows ctx call)
include calls

theorem callFunction_tracks (id : FunctionId) (arguments : List Value) (paren : Token)
    (r : Record) :
    Tracks ctx.maxDepth r (callFunction ctx call id arguments paren)
      (Exec.callFunction ctx id arguments paren) := by
  unfold callFunction Exec.callFunction
  apply Tracks.machine_bind
  by_cases full : ctx.maxDepth ≤ r.now.machine.depth
  · rw [if_pos full, if_pos full]
    exact Tracks.step (Exec.stays_fail _ _)
  · rw [if_neg full, if_neg full]
    exact calls id arguments r (Nat.lt_of_not_le full)

theorem construct_tracks (id : ClassId) (arguments : List Value) (paren : Token) (r : Record) :
    Tracks ctx.maxDepth r (construct ctx call id arguments paren)
      (Exec.construct ctx id arguments paren) := by
  unfold construct Exec.construct
  apply Tracks.machine_bind
  apply Tracks.machine_bind
  apply Tracks.machine_bind
  apply (Tracks.step (Exec.stays_checkArity _ _ _)).bind
  intro _ checked _
  apply (Tracks.step ⟨rfl, rfl, rfl⟩).bind
  intro fresh made _
  cases r.now.machine.initializer? (r.now.machine.classAt id) with
  | none => exact Tracks.pure
  | some f =>
      cases (r.now.machine.classAt id).thisSlot with
      | none => exact Tracks.pure
      | some slot =>
          apply (Tracks.step ⟨rfl, rfl, rfl⟩).bind
          intro bound taken _
          exact (callFunction_tracks calls _ _ _ _).bind fun _ _ _ => Tracks.pure

theorem invoke_tracks (callee : Value) (arguments : List Value) (paren : Token) (r : Record) :
    Tracks ctx.maxDepth r (invoke ctx call callee arguments paren)
      (Exec.invoke ctx callee arguments paren) := by
  cases callee with
  | function id =>
      apply Tracks.machine_bind
      exact (Tracks.step (Exec.stays_checkArity _ _ _)).bind fun _ _ _ =>
        callFunction_tracks calls id arguments paren _
  | «class» id => exact construct_tracks calls id arguments paren r
  | _ => exact Tracks.step (Exec.stays_fail _ _)

omit calls in
/-- The end of a class declaration. -/
theorem makeClass_tracks (id : NodeId) (name : Token) (thisId : NodeId)
    (methodDecls : List FunctionDecl) (members : Table String Value) (r : Record) :
    Tracks ctx.maxDepth r (makeClass ctx id name thisId methodDecls members) (do
      let members ← Exec.addMethods (← Exec.capture) members methodDecls
      let object := ⟨name.lexeme, members, ctx.bindings.slot? thisId⟩
      let made ← modifyGet (·.addClass object)
      Exec.store ctx id name (.class made)
      return .normal) := by
  apply Tracks.capture_bind
  apply (Tracks.step (Exec.stays_addMethods _ _ _)).bind
  intro members added _
  apply (Tracks.step ⟨rfl, rfl, rfl⟩).bind
  intro made built _
  exact (Tracks.step (Exec.stays_store _ _ _ _)).bind fun _ _ _ => Tracks.pure

mutual

theorem expr_tracks : ∀ (e : Expr) (r : Record),
    Tracks ctx.maxDepth r (expr ctx call e) (Exec.expr ctx e)
  | .literal _, _ => Tracks.pure
  | .unary _ right, r =>
      (expr_tracks right r).bind fun _ _ _ => Tracks.step (Exec.stays_ofOperator _ _)
  | .binary left _ right, r =>
      (expr_tracks left r).bind fun _ middle _ =>
        (expr_tracks right middle).bind fun _ _ _ => Tracks.step (Exec.stays_ofOperator _ _)
  | .logical left _ right, r => by
      apply (expr_tracks left r).bind
      intro value middle _
      split
      · exact Tracks.pure
      · exact expr_tracks right middle
  | .ternary condition thenBranch elseBranch, r => by
      apply (expr_tracks condition r).bind
      intro value middle _
      split
      · exact expr_tracks thenBranch middle
      · exact expr_tracks elseBranch middle
  | .grouping inner, r => expr_tracks inner r
  | .variable _ _, _ => Tracks.step (Exec.stays_lookUp _ _ _)
  | .assign _ _ value, r =>
      (expr_tracks value r).bind fun _ _ _ =>
        (Tracks.step (Exec.stays_store _ _ _ _)).bind fun _ _ _ => Tracks.pure
  | .call callee paren arguments, r =>
      (expr_tracks callee r).bind fun _ middle _ =>
        (exprs_tracks arguments middle).bind fun _ last _ => invoke_tracks calls _ _ paren last
  | .function _, _ => Tracks.step ⟨rfl, rfl, rfl⟩
  | .get object _, r =>
      (expr_tracks object r).bind fun _ _ _ => Tracks.step (Exec.stays_getProperty _ _)
  | .set object _ value, r =>
      (expr_tracks object r).bind fun _ _ _ =>
        (Tracks.step (Exec.stays_receiver _ _)).bind fun _ middle _ =>
          (expr_tracks value middle).bind fun _ _ _ =>
            (Tracks.step ⟨rfl, rfl, rfl⟩).bind fun _ _ _ => Tracks.pure
  | .this _ _, _ => Tracks.step (Exec.stays_lookUp _ _ _)

theorem exprs_tracks : ∀ (es : List Expr) (r : Record),
    Tracks ctx.maxDepth r (exprs ctx call es) (Exec.exprs ctx es)
  | [], _ => Tracks.pure
  | e :: rest, r =>
      (expr_tracks e r).bind fun _ middle _ =>
        (exprs_tracks rest middle).bind fun _ _ _ => Tracks.pure

theorem stmt_tracks : ∀ (s : Stmt) (r : Record),
    Tracks ctx.maxDepth r (stmt ctx call s) (Exec.stmt ctx s)
  | .expression value, r => (expr_tracks value r).bind fun _ _ _ => Tracks.pure
  | .print value, r =>
      (expr_tracks value r).bind fun _ _ _ =>
        (Tracks.step (Exec.stays_print _)).bind fun _ _ _ => Tracks.pure
  | .var _ _ none, _ =>
      (Tracks.step (Exec.stays_declare _ _ _ _)).bind fun _ _ _ => Tracks.pure
  | .var _ _ (some initial), r =>
      (expr_tracks initial r).bind fun _ _ _ =>
        (Tracks.step (Exec.stays_declare _ _ _ _)).bind fun _ _ _ => Tracks.pure
  | .block body, r => by
      apply Tracks.capture_bind
      exact Tracks.within _ (stmts_tracks body _)
  | .branch condition thenBranch none, r => by
      apply (expr_tracks condition r).bind
      intro value middle _
      split
      · exact stmt_tracks thenBranch middle
      · exact Tracks.pure
  | .branch condition thenBranch (some elseBranch), r => by
      apply (expr_tracks condition r).bind
      intro value middle _
      split
      · exact stmt_tracks thenBranch middle
      · exact stmt_tracks elseBranch middle
  | .loop condition body, r =>
      Tracks.repeatWhile (fun r => (expr_tracks condition r).map _) (stmt_tracks body)
        ctx.rounds r
  | .function _ _ _, _ =>
      (Tracks.step ⟨rfl, rfl, rfl⟩).bind fun _ _ _ =>
        (Tracks.step (Exec.stays_declare _ _ _ _)).bind fun _ _ _ => Tracks.pure
  | .ret _ none, _ => Tracks.pure
  | .ret _ (some value), r => (expr_tracks value r).bind fun _ _ _ => Tracks.pure
  | .class id name thisId fieldDecls methodDecls, r => by
      apply (Tracks.step (Exec.stays_declare ctx id name .nil)).bind
      intro _ declared _
      apply (fields_tracks fieldDecls Table.empty declared).bind
      intro members filled _
      exact makeClass_tracks id name thisId methodDecls members filled

theorem stmts_tracks : ∀ (ss : List Stmt) (r : Record),
    Tracks ctx.maxDepth r (stmts ctx call ss) (Exec.stmts ctx ss)
  | [], _ => Tracks.pure
  | s :: rest, r => by
      apply (stmt_tracks s r).bind
      intro flow middle _
      cases flow with
      | normal => exact stmts_tracks rest middle
      | returned value => exact Tracks.pure

theorem fields_tracks : ∀ (decls : List FieldDecl) (members : Table String Value) (r : Record),
    Tracks ctx.maxDepth r (fields ctx call members decls) (Exec.fields ctx members decls)
  | [], _, _ => Tracks.pure
  | .mk _ none :: rest, _, r => fields_tracks rest _ r
  | .mk _ (some initial) :: rest, _, r =>
      (expr_tracks initial r).bind fun _ middle _ => fields_tracks rest _ middle

end

theorem body_tracks (object : FunctionObject) (arguments : List Value) (r : Record)
    (room : r.now.machine.depth < ctx.maxDepth) :
    Tracks ctx.maxDepth r (body ctx call object arguments) (Exec.body ctx object arguments) := by
  have runs : Tracks ctx.maxDepth r
      (deeper <| within object.closure do
        step <| modify fun m => { m with
          environment :=
            Exec.bindParams ctx.bindings m.environment object.decl.params arguments }
        stmts ctx call object.decl.body)
      (Exec.deeper <| Exec.within object.closure do
        modify fun m => { m with
          environment :=
            Exec.bindParams ctx.bindings m.environment object.decl.params arguments }
        Exec.stmts ctx object.decl.body) := by
    apply Tracks.deeper room
    apply Tracks.within
    apply (Tracks.step (Exec.stays_bindParams _ _ _)).bind
    intro _ bound _
    exact stmts_tracks calls object.decl.body bound
  apply runs.bind
  intro flow last _
  cases object.isInitializer <;> cases object.receiver <;> cases flow <;> exact Tracks.pure

end Traced

/-- Calls keep their balance, however deep they nest. -/
theorem Traced.follows_calls (bindings : Bindings) (maxDepth bound : Nat) :
    Follows (Exec.context bindings maxDepth bound) (Traced.calls bindings maxDepth bound) := by
  induction bound with
  | zero => exact fun _ _ _ _ => Tracks.throw
  | succ bound ih =>
      intro id arguments r room
      apply Tracks.machine_bind
      exact body_tracks ih _ arguments r room

end Lox
