import Lox.Proofs.Grammar.Program
import Lox.Proofs.Receiver.Agreement

set_option autoImplicit false

/-! Methods keep their receivers. In a program that is accepted, and as long as no class gives a field a
method as its first value, the watched interpreter sounds no alarm: by induction on the code, and on the
bound for the functions that it calls. -/

namespace Lox.Watched

set_option linter.unusedSectionVars false

variable {receivers : Slot → Prop} {alarms : Alarms} {ctx : Context} {own : Option Slot}
  {self : Option InstanceId}

section

variable {other : FunctionId → List Value → Exec Value}
  (calls : CallsTogether ctx.bindings receivers alarms other ctx.call)
include calls

mutual

theorem expr_together : ∀ (e : Expr) (own : Option Slot) (self : Option InstanceId) (m : Machine),
    Tidy.expr ctx.bindings receivers own e → m.Steady ctx.bindings receivers →
      m.environment.Gives receivers m.environment.current own self →
        Together ctx.bindings receivers alarms m (expr alarms { ctx with call := other } self e)
          (Exec.expr ctx e) fun _ _ => True
  | .literal _, _, _, _, _, steady, _ => Together.pure steady trivial
  | .unary operator right, own, self, m, tidy, steady, gives =>
      (expr_together right own self m tidy steady gives).bind fun _ _ carries _ =>
        Together.same (ofOperator_carried carries.steady operator _)
  | .binary left operator right, own, self, m, tidy, steady, gives =>
      (expr_together left own self m tidy.1 steady gives).bind fun _ after carries _ =>
        (expr_together right own self after tidy.2 carries.steady
          (carries.gives steady gives)).bind fun _ _ more _ =>
            Together.same (ofOperator_carried more.steady operator _)
  | .logical left operator right, own, self, m, tidy, steady, gives => by
      refine (expr_together left own self m tidy.1 steady gives).bind fun value after carries _ => ?_
      split
      · exact Together.pure carries.steady trivial
      · exact expr_together right own self after tidy.2 carries.steady (carries.gives steady gives)
  | .ternary condition thenBranch elseBranch, own, self, m, tidy, steady, gives => by
      refine (expr_together condition own self m tidy.1 steady gives).bind fun _ after carries _ => ?_
      have there := carries.gives steady gives
      split
      · exact expr_together thenBranch own self after tidy.2.1 carries.steady there
      · exact expr_together elseBranch own self after tidy.2.2 carries.steady there
  | .grouping inner, own, self, m, tidy, steady, gives =>
      expr_together inner own self m tidy steady gives
  | .variable id name, _, _, _, _, steady, _ => Together.same (lookUp_carried steady id name)
  | .assign id name value, own, self, m, tidy, steady, gives =>
      (expr_together value own self m tidy.2 steady gives).bind fun _ _ carries _ =>
        (Together.same (store_carried carries.steady tidy.1 name _)).bind fun _ _ more _ =>
          Together.pure more.steady trivial
  | .call callee paren arguments, own, self, m, tidy, steady, gives =>
      (expr_together callee own self m tidy.1 steady gives).bind fun _ after carries _ =>
        (exprs_together arguments own self after tidy.2 carries.steady
          (carries.gives steady gives)).bind fun _ _ more _ =>
            invoke_together calls more.steady _ _ paren
  | .function decl, own, self, m, tidy, steady, gives =>
      Together.same ⟨steady.addFunction ⟨steady.current, own, tidy, by
        have none : FunctionObject.self? ⟨decl, m.environment.current, none⟩ = none := ite_self none
        rw [none]
        exact Environment.gives_none _ _ own⟩, trivial⟩
  | .get object name, own, self, m, tidy, steady, gives =>
      (expr_together object own self m tidy steady gives).bind fun _ _ carries _ =>
        getProperty_together carries.steady _ name
  | .set object name value, own, self, m, tidy, steady, gives =>
      (expr_together object own self m tidy.1 steady gives).bind fun _ _ carries _ =>
        (Together.same (receiver_carried carries.steady _ name)).bind fun id middle more _ =>
          have there := carries.trans more
          (expr_together value own self middle tidy.2 there.steady
            (there.gives steady gives)).bind fun value _ further _ =>
              have set := further.steady.setField id name.lexeme value
              Together.modifyGet_bind set (Together.pure set.steady trivial)
  | .this id keyword, own, self, m, tidy, steady, gives =>
      findReceiver_together other steady gives tidy keyword

theorem exprs_together : ∀ (es : List Expr) (own : Option Slot) (self : Option InstanceId)
    (m : Machine), Tidy.exprs ctx.bindings receivers own es → m.Steady ctx.bindings receivers →
      m.environment.Gives receivers m.environment.current own self →
        Together ctx.bindings receivers alarms m (exprs alarms { ctx with call := other } self es)
          (Exec.exprs ctx es) fun _ _ => True
  | [], _, _, _, _, steady, _ => Together.pure steady trivial
  | e :: rest, own, self, m, tidy, steady, gives =>
      (expr_together e own self m tidy.1 steady gives).bind fun _ after carries _ =>
        (exprs_together rest own self after tidy.2 carries.steady
          (carries.gives steady gives)).bind fun _ _ more _ => Together.pure more.steady trivial

theorem stmt_together : ∀ (s : Stmt) (own : Option Slot) (self : Option InstanceId) (m : Machine),
    Tidy.stmt ctx.bindings receivers own s → m.Steady ctx.bindings receivers →
      m.environment.Gives receivers m.environment.current own self →
        Together ctx.bindings receivers alarms m (stmt alarms { ctx with call := other } self s)
          (Exec.stmt ctx s) fun _ _ => True
  | .expression value, own, self, m, tidy, steady, gives =>
      (expr_together value own self m tidy steady gives).bind fun _ _ carries _ =>
        Together.pure carries.steady trivial
  | .print value, own, self, m, tidy, steady, gives =>
      (expr_together value own self m tidy steady gives).bind fun value _ carries _ =>
        (Together.same (print_carried carries.steady value)).bind fun _ _ more _ =>
          Together.pure more.steady trivial
  | .var id name none, _, _, m, tidy, steady, _ =>
      (Together.same (declare_carried steady tidy name .nil)).bind fun _ _ carries _ =>
        Together.pure carries.steady trivial
  | .var id name (some initial), own, self, m, tidy, steady, gives =>
      (expr_together initial own self m tidy.2 steady gives).bind fun value _ carries _ =>
        (Together.same (declare_carried carries.steady tidy.1 name value)).bind fun _ _ more _ =>
          Together.pure more.steady trivial
  | .block body, own, self, m, tidy, steady, gives => by
      apply Together.capture_bind
      exact Together.within steady steady.current (stmts_together body own self _ tidy
        (steady.graft steady.current).1 (gives.inner steady.current))
  | .branch condition thenBranch none, own, self, m, tidy, steady, gives => by
      refine (expr_together condition own self m tidy.1 steady gives).bind fun _ after carries _ => ?_
      split
      · exact stmt_together thenBranch own self after tidy.2 carries.steady
          (carries.gives steady gives)
      · exact Together.pure carries.steady trivial
  | .branch condition thenBranch (some elseBranch), own, self, m, tidy, steady, gives => by
      refine (expr_together condition own self m tidy.1 steady gives).bind fun _ after carries _ => ?_
      have there := carries.gives steady gives
      split
      · exact stmt_together thenBranch own self after tidy.2.1 carries.steady there
      · exact stmt_together elseBranch own self after tidy.2.2 carries.steady there
  | .loop condition body, own, self, m, tidy, steady, gives =>
      Together.repeatWhile
        (fun after carries => (expr_together condition own self after tidy.1 carries.steady
          (carries.gives steady gives)).map _)
        (fun after carries => stmt_together body own self after tidy.2 carries.steady
          (carries.gives steady gives))
        ctx.rounds m (.refl steady)
  | .function id name decl, own, self, m, tidy, steady, gives =>
      (expr_together (.function decl) own self m tidy.2 steady gives).bind fun value _ carries _ =>
        (Together.same (declare_carried carries.steady tidy.1 name value)).bind fun _ _ more _ =>
          Together.pure more.steady trivial
  | .ret _ none, _, _, _, _, steady, _ => Together.pure steady trivial
  | .ret _ (some value), own, self, m, tidy, steady, gives =>
      (expr_together value own self m tidy steady gives).bind fun _ _ carries _ =>
        Together.pure carries.steady trivial
  | .class id name thisId fieldDecls methodDecls, own, self, m, tidy, steady, gives => by
      obtain ⟨free, ⟨slot, thisSlot, receives⟩, tidyFields, tidyMethods⟩ := tidy
      rw [thisSlot] at tidyFields tidyMethods
      refine (Together.same (declare_carried steady free name .nil)).bind fun _ one first _ => ?_
      refine (fields_together slot fieldDecls one Table.empty tidyFields first.steady
        nofun).bind fun table two second shares => ?_
      apply Together.capture_bind
      refine (addMethods_together receives _ methodDecls two table second.steady
        second.steady.current tidyMethods shares).bind fun members three third shares => ?_
      rw [← thisSlot] at shares
      have added := third.steady.addClass ⟨name.lexeme, members, ctx.bindings.slot? thisId⟩ shares
      apply Together.modifyGet_bind added
      exact (Together.same (store_carried added.steady free name _)).bind fun _ _ more _ =>
        Together.pure more.steady trivial

theorem stmts_together : ∀ (ss : List Stmt) (own : Option Slot) (self : Option InstanceId)
    (m : Machine), Tidy.stmts ctx.bindings receivers own ss → m.Steady ctx.bindings receivers →
      m.environment.Gives receivers m.environment.current own self →
        Together ctx.bindings receivers alarms m (stmts alarms { ctx with call := other } self ss)
          (Exec.stmts ctx ss) fun _ _ => True
  | [], _, _, _, _, steady, _ => Together.pure steady trivial
  | s :: rest, own, self, m, tidy, steady, gives => by
      refine (stmt_together s own self m tidy.1 steady gives).bind fun flow after carries _ => ?_
      cases flow with
      | normal =>
          exact stmts_together rest own self after tidy.2 carries.steady
            (carries.gives steady gives)
      | returned value => exact Together.pure carries.steady trivial

/-- The first value of a field is no method, or else the watched run stops. -/
theorem fields_together (slot : Slot) : ∀ (decls : List FieldDecl) (m : Machine)
    (table : Table String Value), Tidy.fields ctx.bindings receivers (some slot) decls →
      m.Steady ctx.bindings receivers → SharesTable ctx.bindings receivers (some slot) m table →
        Together ctx.bindings receivers alarms m
          (fields alarms { ctx with call := other } table decls) (Exec.fields ctx table decls)
          fun last table => SharesTable ctx.bindings receivers (some slot) last table
  | [], _, _, _, steady, shares => Together.pure steady shares
  | .mk name none :: rest, m, table, tidy, steady, shares =>
      fields_together slot rest m _ tidy steady (shares.insert _ nofun)
  | .mk name (some initial) :: rest, m, table, tidy, steady, shares => by
      refine (expr_together initial (some slot) none m tidy.1 steady
        (Environment.gives_none _ _ _)).bind fun value after carries _ => ?_
      cases isPlain : after.isPlain value with
      | false =>
          refine .inl ⟨name, after, ?_⟩
          change (if after.isPlain value = true then _ else _ : Exec _) after = _
          rw [isPlain]
          rfl
      | true =>
          refine Together.of_eq ?_ (fields_together slot rest after _ tidy.2 carries.steady
            ((shares.grow carries.spares.grows).insert _ (Machine.shares_of_isPlain _ isPlain)))
          change (if after.isPlain value = true then _ else _ : Exec _) after = _
          rw [isPlain]
          rfl

end

theorem body_together {object : FunctionObject} (arguments : List Value) {m : Machine}
    (steady : m.Steady ctx.bindings receivers)
    (own : object.Steady ctx.bindings receivers m.environment) :
    Together ctx.bindings receivers alarms m
      (body alarms { ctx with call := other } object arguments) (Exec.body ctx object arguments)
      fun _ value => ∀ id, object.isInitializer = true → object.receiver = some id →
        value = .instance id := by
  obtain ⟨⟨name, kind, parameters, statements⟩, closure, receiver⟩ := object
  obtain ⟨within, slot, ⟨tidyParams, tidyBody⟩, gives⟩ := own
  have down : m.Carries ctx.bindings receivers { m with depth := m.depth + 1 } :=
    steady.carries_of_eq rfl rfl rfl
  have grafted := down.steady.graft (within.grow down.spares.grows)
  have bound := Machine.Steady.bindParams parameters arguments grafted.1 tidyParams
  have runs : Together ctx.bindings receivers alarms m
      (Exec.deeper <| Exec.within closure do
        modify fun m => { m with
          environment := Exec.bindParams ctx.bindings m.environment parameters arguments }
        stmts alarms { ctx with call := other }
          (FunctionObject.self? ⟨.mk name kind parameters statements, closure, receiver⟩) statements)
      (Exec.deeper <| Exec.within closure do
        modify fun m => { m with
          environment := Exec.bindParams ctx.bindings m.environment parameters arguments }
        Exec.stmts ctx statements) fun _ _ => True := by
    refine Together.deeper (Together.within down.steady (within.grow down.spares.grows) ?_) steady
    apply Together.modifyGet_bind bound
    exact stmts_together calls statements slot _ _ tidyBody bound.steady
      (bound.gives grafted.1 (gives.inner within))
  refine runs.bind fun flow last carries _ => ?_
  generalize FunctionObject.isInitializer ⟨.mk name kind parameters statements, closure, receiver⟩ =
    isInitializer
  cases isInitializer <;> cases receiver <;> cases flow <;>
    exact Together.pure carries.steady (by simp)

end

theorem call_together (bindings : Bindings) (maxDepth bound : Nat) :
    CallsTogether bindings receivers alarms (call alarms bindings maxDepth bound)
      (Exec.call bindings maxDepth bound) := by
  induction bound with
  | zero =>
      intro _ _ _ steady
      exact Together.fail steady .exhausted
  | succ bound ih =>
      intro m id arguments steady
      have calls : CallsTogether (Exec.context bindings maxDepth bound).bindings receivers alarms
          (call alarms bindings maxDepth bound) (Exec.context bindings maxDepth bound).call :=
        ih
      have runs := body_together calls arguments steady (steady.functions id)
      apply Together.get_bind
      refine runs.demand fun value after yields => ?_
      cases isInitializer : (m.functionAt id).isInitializer with
      | false => rfl
      | true =>
          cases receiver : (m.functionAt id).receiver with
          | none => rfl
          | some i =>
              rw [yields i isInitializer receiver]
              exact beq_self_eq_true i

theorem steady_new (bindings : Bindings) (receivers : Slot → Prop) (output : Sink) :
    (Machine.new output).Steady bindings receivers := by
  have within : (Machine.new output).environment.Within ⟨0, []⟩ := by
    intro frame member
    cases member with
    | head => exact Nat.zero_lt_one
    | tail _ impossible => cases impossible
  exact ⟨within, fun id => ⟨within, none, ⟨nofun, trivial⟩, nofun⟩, nofun⟩

/-- A program that is accepted goes as if it were watched, as long as no class gives a field a method as its
first value. -/
theorem program_keeps_receivers (base : Nat) (text : List Char) (firstId : NodeId)
    (accepted : (resolve Bindings.empty
      (Grammar.readText base text firstId).statements).1 = none)
    (maxDepth bound : Nat) (output : Sink) (alarms : Alarms) :
    let program := (Grammar.readText base text firstId).statements
    let bindings := (resolve Bindings.empty program).2
    let watched := stmts alarms (context alarms bindings maxDepth bound) none program
      (Machine.new output)
    StopsAtField alarms watched ∨
      watched = Exec.stmts (Exec.context bindings maxDepth bound) program (Machine.new output) := by
  intro program bindings watched
  have fit := Grammar.readText_fit base text firstId
  have recorded : Recorded (Sites.program program) Bindings.empty bindings :=
    resolve_recorded fit.numbered.nodup (fun _ _ => Bindings.slot?_empty _) accepted
  have tidy := resolve_tidy recorded fit.numbered.nodup fit.regular
  have calls : CallsTogether (Exec.context bindings maxDepth bound).bindings
      (Sites.receivers (Sites.program program) bindings) alarms
      (call alarms bindings maxDepth bound) (Exec.context bindings maxDepth bound).call :=
    call_together bindings maxDepth bound
  exact Or.imp id And.left
    (stmts_together calls program none none _ tidy (steady_new _ _ output) nofun)

/-- Methods that are kept by an instance, by a variable and by a function, and called from there. -/
theorem program_keeps_receivers_of_kept_methods :
    let program := (Grammar.readText 0
      "class A { init() { this.by = this.who; } who() { return this; } }
       var a = A(); var b = A(); b.from = a.who; var again = a.init;
       fun later(f) { return fun () { return f(); }; }
       print b.from() == a; print again() == a; print later(b.by)() == b;".toList 0).statements
    let bindings := (resolve Bindings.empty program).2
    let alarms : Alarms := ⟨fun _ => .exhausted, .exhausted⟩
    stmts alarms (context alarms bindings 100 50) none program (Machine.new .unlimited) =
      Exec.stmts (Exec.context bindings 100 50) program (Machine.new .unlimited) := by
  intro program bindings alarms
  have goesOn : Outcome.succeeds (stmts alarms (context alarms bindings 100 50) none program
      (Machine.new .unlimited)) = true := by decide +kernel
  refine (program_keeps_receivers 0 _ 0 (by decide +kernel) 100 50 .unlimited alarms).resolve_left
    fun stops => ?_
  exact Bool.noConfusion (goesOn.symm.trans stops.fails)

end Lox.Watched
