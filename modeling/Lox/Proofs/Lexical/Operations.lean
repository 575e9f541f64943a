import Lox.Proofs.Lexical.Names
import Lox.Proofs.Machine.Operations

set_option autoImplicit false

/-! The operations of the two interpreters go alike: a method that is read from an instance gets a frame
with its receiver on one side and a cell for it on the other, and a call goes alike if the body of the
function does. -/

namespace Lox.Lexical

variable {bindings : Bindings} {w more : World} {m after : Machine} {n last : Memory}
  {path : Path} {sight : Sight} {value : Value}

theorem backs_of_other (other : ∀ id, value ≠ .function id) : w.Backs bindings value :=
  fun id same => absurd same (other id)

theorem backs_nil : w.Backs bindings .nil :=
  backs_of_other nofun

theorem backs_class (id : ClassId) : w.Backs bindings (.class id) :=
  backs_of_other nofun

theorem backs_instance (id : InstanceId) : w.Backs bindings (.instance id) :=
  backs_of_other nofun

section

variable (shared : Shared bindings w m n)
include shared

theorem ofOperator_lockstep (token : Token) {result : Except RuntimeFault Value}
    (isPlain : Value.PlainResult result) :
    Lockstep bindings [] w m n (Exec.ofOperator token result) (Run.ofOperator token result)
      (Alike bindings) := by
  cases result with
  | ok value => exact Lockstep.pure shared ⟨rfl, backs_of_other isPlain⟩
  | error fault => exact Lockstep.fail shared fault token

theorem print_lockstep (value : Value) :
    Lockstep bindings [] w m n (Exec.print value) (Run.print value) fun _ _ _ => True := by
  change Agree bindings [] w m _ (Exec.write (m.text value ++ "\n") m)
    (Run.write (n.text value ++ "\n") n)
  rw [shared.text, Exec.write, Run.write, shared.objects.output]
  have step : Step bindings [] w m w
      { m with output := m.output.accept (m.text value ++ "\n") }
      { n with output := m.output.accept (m.text value ++ "\n") } :=
    Step.still (World.Le.refl w) (shared.accept _) rfl rfl
  cases m.output.failure? (m.text value ++ "\n") with
  | none => exact ⟨w, step, trivial⟩
  | some failure => exact ⟨rfl, rfl⟩

theorem receiver_lockstep (object : Value) (name : Token) :
    Lockstep bindings [] w m n (Exec.receiver object name) (Run.receiver object name)
      fun _ a b => b = a := by
  cases object with
  | «instance» id => exact Lockstep.pure shared rfl
  | _ => exact Lockstep.fail shared .fieldOfOther name

theorem checkArity_bind {α β : Type} {own : List Slot} (expected found : Nat) (paren : Token)
    {first : Exec α} {second : Run β} {good : World → α → β → Prop}
    (rest : expected = found → Lockstep bindings own w m n first second good) :
    Lockstep bindings own w m n (Exec.checkArity expected found paren >>= fun _ => first)
      (Run.checkArity expected found paren >>= fun _ => second) good := by
  unfold Exec.checkArity Run.checkArity
  split
  · next same => exact rest same
  · exact Lockstep.of_error rfl rfl shared.objects.output.symm

/-- A new function may be called if its code can run at the place where it was made. -/
theorem addFunction_step (e : Entry) (runs : e.Runs bindings (w.addEntry e)) :
    Step bindings [] w m (w.addEntry e) (m.addFunction e.object).2 (n.addFunction e.closure).2 ∧
      (n.addFunction e.closure).1 = (m.addFunction e.object).1 ∧
        (w.addEntry e).Backs bindings (.function (m.addFunction e.object).1) := by
  have ids := shared.addFunction_id e
  refine ⟨Step.still (w.le_addEntry e) (shared.addFunction e) rfl rfl, ids.2.trans ids.1.symm,
    fun id same => ?_⟩
  cases same
  refine ⟨e, ?_, runs⟩
  rw [ids.1]
  simp [World.addEntry]

theorem close_lockstep {role : FunctionKind} {decl : FunctionDecl}
    (placed : Placed bindings w path m.environment.current sight (Sites.function role path decl) [])
    (regular : Regular.function decl) (noInitial : Initialized.function decl = []) :
    Lockstep bindings [] w m n (Exec.close decl) (Run.close sight decl) (Alike bindings) := by
  obtain ⟨step, same, backs⟩ := addFunction_step shared ⟨decl, none, m.environment.current, sight⟩
    ⟨path, role, placed.le_nil (w.le_addEntry _), regular, noInitial⟩
  exact Lockstep.of_ok rfl rfl step ⟨congrArg Value.function same, backs⟩

theorem bindFunction_step {f : FunctionId} {e : Entry} {slot : Slot}
    (found : w.entries[f]? = some e) (lacks : e.LacksReceiver bindings w (some slot))
    (receiver : InstanceId) :
    ∃ more, Step bindings [] w m more (m.bindFunction f receiver slot).2
        (n.bindFunction f receiver).2 ∧
      (n.bindFunction f receiver).1 = (m.bindFunction f receiver slot).1 ∧
        more.Backs bindings (.function (m.bindFunction f receiver slot).1) := by
  obtain ⟨path, role, thisId, thisSlot, same, binds, placed, regular, noInitial⟩ := lacks
  cases same
  have locals := shared.locals
  let bound : World := (w.enter [slot]).addCell w.homes.length slot
  let cell : Value := .instance receiver
  have le : w.Le bound := (w.le_enter [slot]).trans ((w.enter [slot]).le_addCell _ _)
  have middle : Shared bindings bound
      { m with environment := m.environment.push (Environment.cell slot cell) }
      (n.addCell cell).2 := shared.push (backs_instance receiver)
  obtain ⟨step, sameId, backs⟩ := addFunction_step middle
    ⟨e.decl, some receiver, ⟨w.homes.length, e.chain.frames⟩, e.sight.add "this" w.places.length⟩
    ⟨.members thisId :: path, role, (placed.receive locals binds).le_nil (bound.le_addEntry _),
      regular, noInitial⟩
  have real : m.bindFunction f receiver slot =
      Machine.addFunction { m with environment := m.environment.push (Environment.cell slot cell) }
        ⟨e.decl, ⟨w.homes.length, e.chain.frames⟩, some receiver⟩ := by
    rw [Machine.bindFunction, (shared.functionAt found).1, ← locals.frames]
    rfl
  have plain : n.bindFunction f receiver = Memory.addFunction (n.addCell cell).2
      ⟨e.decl, e.sight.add "this" w.places.length, some receiver⟩ := by
    rw [Memory.bindFunction, (shared.functionAt found).2, ← locals.count]
    rfl
  rw [real, plain]
  refine ⟨_, ⟨le.trans step.le, step.shared, rfl, fun place member => ?_⟩, sameId, backs⟩
  rcases List.mem_append.mp member with old | new
  · exact .inl old
  · rw [List.mem_singleton.mp new]
    exact .inr (.inl (Nat.le_refl _))

theorem getProperty_lockstep (object : Value) (name : Token) :
    Lockstep bindings [] w m n (Exec.getProperty object name) (Run.getProperty object name)
      (Alike bindings) := by
  cases object with
  | «instance» id =>
      have instances := shared.instanceAt id
      have members := shared.objects.members (m.instanceAt id).owner
      cases field : (m.instanceAt id).fields.get? name.lexeme with
      | some value =>
          refine Lockstep.of_ok (a := value) (b := value) ?_ ?_ (Step.refl shared)
            ⟨rfl, shared.objects.backsFields id _ value field⟩
          · simp only [Exec.getProperty, Machine.getProperty, field]
          · simp only [Run.getProperty, Memory.getProperty, instances, field]
      | none =>
          cases member : (m.classAt (m.instanceAt id).owner).members.get? name.lexeme with
          | none =>
              refine (Lockstep.fail shared (.undefinedProperty name.lexeme) name).congr ?_ ?_
              · simp only [Exec.getProperty, Machine.getProperty, field, member]
              · simp only [Run.getProperty, Memory.getProperty, instances, field, members, member]
          | some value =>
              have backs := shared.objects.backsMembers _ _ value member
              by_cases isFunction : ∃ f, value = .function f
              · obtain ⟨f, rfl⟩ := isFunction
                obtain ⟨e, found, lacks⟩ := backs f rfl
                have thisSlot := lacks
                obtain ⟨_, _, _, slot, isSlot, _⟩ := thisSlot
                rw [isSlot] at lacks
                obtain ⟨more, step, same, runs⟩ := bindFunction_step shared found lacks id
                refine Lockstep.of_ok ?_ ?_ step ⟨congrArg Value.function same, runs⟩
                · simp only [Exec.getProperty, Machine.getProperty, field, member, isSlot]
                · simp only [Run.getProperty, Memory.getProperty, instances, field, members, member]
              · have other (f : FunctionId) : value ≠ .function f :=
                  fun same => isFunction ⟨f, same⟩
                have real : m.getProperty id name.lexeme = (some value, m) := by
                  cases value with
                  | function f => exact absurd rfl (other f)
                  | _ => simp only [Machine.getProperty, field, member]
                have plain : n.getProperty id name.lexeme = (some value, n) := by
                  cases value with
                  | function f => exact absurd rfl (other f)
                  | _ => simp only [Memory.getProperty, instances, field, members, member]
                refine Lockstep.of_ok (a := value) (b := value) ?_ ?_ (Step.refl shared)
                  ⟨rfl, backs_of_other other⟩
                · simp only [Exec.getProperty, real]
                · simp only [Run.getProperty, plain]
  | _ => exact Lockstep.fail shared .propertyOfOther name

theorem initializer?_classAt (id : ClassId) :
    n.initializer? (n.classAt id) = m.initializer? (m.classAt id) := by
  unfold Memory.initializer? Machine.initializer?
  rw [shared.objects.members]
  cases (m.classAt id).members.get? "init" with
  | none => rfl
  | some value =>
      cases value with
      | function f =>
          simp only [Closure.isInitializer, FunctionObject.isInitializer, shared.decl_functionAt]
          rfl
      | _ => rfl

theorem arity_functionAt (id : FunctionId) :
    (n.functionAt id).arity = (m.functionAt id).arity := by
  rw [Closure.arity, FunctionObject.arity, shared.decl_functionAt]

theorem arityOfClass_classAt (id : ClassId) :
    n.arityOfClass (n.classAt id) = m.arityOfClass (m.classAt id) := by
  rw [Memory.arityOfClass, Machine.arityOfClass, initializer?_classAt shared]
  cases m.initializer? (m.classAt id) with
  | none => rfl
  | some f => exact arity_functionAt shared f

end

/-- Calls of functions that may be called go alike. -/
def CallsAgree (bindings : Bindings) (real : FunctionId → List Value → Exec Value)
    (plain : FunctionId → List Value → Run Value) : Prop :=
  ∀ (w : World) (m : Machine) (n : Memory) (id : FunctionId) (arguments : List Value),
    Shared bindings w m n → w.Backs bindings (.function id) →
      (∀ value ∈ arguments, w.Backs bindings value) →
        (m.functionAt id).arity = arguments.length →
          Lockstep bindings [] w m n (real id arguments) (plain id arguments) (Alike bindings)

/-- Code refers to the same calls on both sides. -/
structure Matches (ctx : Lox.Context) (plain : Context) : Prop where
  maxDepth : plain.maxDepth = ctx.maxDepth
  rounds : plain.rounds = ctx.rounds
  calls : CallsAgree ctx.bindings ctx.call plain.call

section

variable {ctx : Lox.Context} {plain : Context} (matched : Matches ctx plain)
  (shared : Shared ctx.bindings w m n)
include matched shared

theorem callFunction_lockstep {id : FunctionId} (runs : w.Backs ctx.bindings (.function id))
    {arguments : List Value} (backs : ∀ value ∈ arguments, w.Backs ctx.bindings value)
    (arity : (m.functionAt id).arity = arguments.length) (paren : Token) :
    Lockstep ctx.bindings [] w m n (Exec.callFunction ctx id arguments paren)
      (Run.callFunction plain id arguments paren) (Alike ctx.bindings) := by
  unfold Exec.callFunction Run.callFunction
  apply Lockstep.get_bind
  rw [matched.maxDepth, shared.objects.depth]
  split
  · exact Lockstep.fail shared .tooDeep paren
  · exact matched.calls w m n id arguments shared runs backs arity

theorem construct_lockstep (id : ClassId) {arguments : List Value}
    (backs : ∀ value ∈ arguments, w.Backs ctx.bindings value) (paren : Token) :
    Lockstep ctx.bindings [] w m n (Exec.construct ctx id arguments paren)
      (Run.construct plain id arguments paren) (Alike ctx.bindings) := by
  unfold Exec.construct Run.construct
  refine Lockstep.get_bind (Lockstep.get_bind (Lockstep.get_bind ?_))
  rw [initializer?_classAt shared, arityOfClass_classAt shared]
  refine checkArity_bind shared _ _ _ fun arity => ?_
  have added : Step ctx.bindings [] w m w (m.addInstance id).2 (n.addInstance id).2 :=
    Step.still (World.Le.refl w) (shared.addInstance id) rfl rfl
  have count : (n.addInstance id).1 = (m.addInstance id).1 :=
    congrArg Array.size shared.objects.instances
  apply Lockstep.modifyGet_bind (f := (·.addInstance id)) (g := (·.addInstance id)) added
  rw [count]
  cases initial : m.initializer? (m.classAt id) with
  | none => exact Lockstep.pure added.shared ⟨rfl, backs_instance _⟩
  | some f =>
      obtain ⟨e, found, lacks⟩ := shared.objects.backsMembers _ _ _
        (member_of_initializer initial) f rfl
      have thisSlot := lacks
      obtain ⟨_, _, _, slot, isSlot, _⟩ := thisSlot
      rw [isSlot] at lacks ⊢
      obtain ⟨more, step, same, runs⟩ := bindFunction_step added.shared found lacks
        (m.addInstance id).1
      refine Lockstep.modifyGet_bind (f := (·.bindFunction f (m.addInstance id).1 slot))
        (g := (·.bindFunction f (m.addInstance id).1)) step ?_
      rw [same]
      refine (callFunction_lockstep matched step.shared runs
        (fun value member => (backs value member).le step.le) ?_ paren).bind
        fun _ _ _ _ _ last _ => Lockstep.pure last.shared ⟨rfl, backs_instance _⟩
      rw [Machine.arityOfClass, initial] at arity
      rw [FunctionObject.arity, decl_bindFunction]
      exact arity

theorem invoke_lockstep {callee : Value} (runs : w.Backs ctx.bindings callee)
    {arguments : List Value} (backs : ∀ value ∈ arguments, w.Backs ctx.bindings value)
    (paren : Token) :
    Lockstep ctx.bindings [] w m n (Exec.invoke ctx callee arguments paren)
      (Run.invoke plain callee arguments paren) (Alike ctx.bindings) := by
  unfold Exec.invoke Run.invoke
  cases callee with
  | function id =>
      apply Lockstep.get_bind
      rw [arity_functionAt shared]
      exact checkArity_bind shared _ _ _ fun arity =>
        callFunction_lockstep matched shared runs backs arity paren
  | «class» id => exact construct_lockstep matched shared id backs paren
  | _ => exact Lockstep.fail shared .notCallable paren

end
end Lox.Lexical
