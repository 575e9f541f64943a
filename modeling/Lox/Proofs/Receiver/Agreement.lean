import Lox.Proofs.Machine.Operations
import Lox.Proofs.Receiver.Steady

set_option autoImplicit false

/-! A watched run beside a plain one. Both start on one steady machine; either the watched run stops at a
field whose first value is a method, or both have the same outcome and leave a steady machine on which
no receiver has been written over. Sequences, frames, calls and loops go together if their parts do. -/

namespace Lox.Watched

variable {α β : Type}

def Carried (bindings : Bindings) (receivers : Slot → Prop) (m : Machine)
    (good : Machine → α → Prop) : EStateM.Result Stop Machine α → Prop
  | .ok a after => m.Carries bindings receivers after ∧ good after a
  | .error _ after => m.Carries bindings receivers after

/-- The watched run stops at a field whose first value is a method. -/
def StopsAtField (alarms : Alarms) (result : EStateM.Result Stop Machine α) : Prop :=
  ∃ name last, result = .error (alarms.kept name) last

/-- Unless the watched run stops at a field, it ends like the plain one. -/
def Together (bindings : Bindings) (receivers : Slot → Prop) (alarms : Alarms) (m : Machine)
    (watched plain : Exec α) (good : Machine → α → Prop) : Prop :=
  StopsAtField alarms (watched m) ∨
    watched m = plain m ∧ Carried bindings receivers m good (plain m)

variable {bindings : Bindings} {receivers : Slot → Prop} {alarms : Alarms} {m : Machine}
  {watched plain : Exec α} {good : Machine → α → Prop}

theorem StopsAtField.fails {result : EStateM.Result Stop Machine α}
    (stops : StopsAtField alarms result) : Outcome.succeeds result = false := by
  obtain ⟨name, last, rfl⟩ := stops
  rfl

theorem Carried.after {middle : Machine} {result : EStateM.Result Stop Machine α}
    (carries : m.Carries bindings receivers middle)
    (carried : Carried bindings receivers middle good result) :
    Carried bindings receivers m good result := by
  cases result with
  | ok a last => exact ⟨carries.trans carried.1, carried.2⟩
  | error stop last => exact carries.trans carried

namespace Together

theorem same (carried : Carried bindings receivers m good (plain m)) :
    Together bindings receivers alarms m plain plain good :=
  .inr ⟨rfl, carried⟩

theorem pure {a : α} (steady : m.Steady bindings receivers) (isGood : good m a) :
    Together bindings receivers alarms m (return a) (return a) good :=
  same ⟨.refl steady, isGood⟩

theorem fail (steady : m.Steady bindings receivers) (stop : Stop) :
    Together bindings receivers alarms m (throw stop) (throw stop) good :=
  same (.refl steady)

theorem bind {next : Machine → β → Prop} {first second : α → Exec β}
    (one : Together bindings receivers alarms m watched plain good)
    (two : ∀ a after, m.Carries bindings receivers after → good after a →
      Together bindings receivers alarms after (first a) (second a) next) :
    Together bindings receivers alarms m (watched >>= first) (plain >>= second) next := by
  rcases one with ⟨name, last, stopped⟩ | ⟨same, carried⟩
  · exact .inl ⟨name, last, Outcome.bind_of_error stopped⟩
  · cases result : plain m with
    | ok a middle =>
        rw [result] at same carried
        unfold Together StopsAtField
        rw [Outcome.bind_of_ok same, Outcome.bind_of_ok result]
        exact Or.imp id (fun both => ⟨both.1, both.2.after carried.1⟩)
          (two a middle carried.1 carried.2)
    | error stop middle =>
        rw [result] at same carried
        refine .inr ⟨?_, ?_⟩
        · rw [Outcome.bind_of_error same, Outcome.bind_of_error result]
        · rw [Outcome.bind_of_error result]
          exact carried

theorem imp {better : Machine → α → Prop}
    (together : Together bindings receivers alarms m watched plain good)
    (improves : ∀ a after, m.Carries bindings receivers after → good after a → better after a) :
    Together bindings receivers alarms m watched plain better := by
  refine Or.imp id (fun both => ⟨both.1, ?_⟩) together
  have carried := both.2
  cases result : plain m with
  | ok a middle =>
      rw [result] at carried
      exact ⟨carried.1, improves a middle carried.1 carried.2⟩
  | error stop middle =>
      rw [result] at carried
      exact carried

/-- Where a watch has nothing to stop. -/
theorem of_eq {unwatched : Exec α} (same : watched m = unwatched m)
    (together : Together bindings receivers alarms m unwatched plain good) :
    Together bindings receivers alarms m watched plain good := by
  unfold Together StopsAtField at together ⊢
  rw [same]
  exact together

/-- A value that has what is demanded of it. -/
theorem demand {watched plain : Exec Value} {good : Machine → Value → Prop}
    {holds : Machine → Value → Bool}
    (together : Together bindings receivers alarms m watched plain good)
    (isGood : ∀ value after, good after value → holds after value = true) :
    Together bindings receivers alarms m (watched >>= demand alarms holds) plain
      fun _ _ => True := by
  rw [← bind_pure plain]
  exact together.bind fun value after carries found =>
    of_eq (if_pos (isGood value after found)) (pure carries.steady trivial)

theorem get_bind {next : Machine → β → Prop} {first second : Machine → Exec β}
    (rest : Together bindings receivers alarms m (first m) (second m) next) :
    Together bindings receivers alarms m (get >>= first) (get >>= second) next :=
  rest

theorem capture_bind {next : Machine → β → Prop} {first second : Chain → Exec β}
    (rest : Together bindings receivers alarms m (first m.environment.current)
      (second m.environment.current) next) :
    Together bindings receivers alarms m (Exec.capture >>= first) (Exec.capture >>= second) next :=
  rest

theorem modifyGet_bind {next : Machine → β → Prop} {change : Machine → α × Machine}
    {first second : α → Exec β} (carries : m.Carries bindings receivers (change m).2)
    (rest : Together bindings receivers alarms (change m).2 (first (change m).1)
      (second (change m).1) next) :
    Together bindings receivers alarms m (modifyGet change >>= first) (modifyGet change >>= second)
      next :=
  Or.imp id (fun both => ⟨both.1, both.2.after carries⟩) rest

theorem within (steady : m.Steady bindings receivers) {chain : Chain}
    (inside : m.environment.Within chain)
    (inner : Together bindings receivers alarms
      { m with environment := m.environment.graft chain } watched plain fun _ _ => True) :
    Together bindings receivers alarms m (Exec.within chain watched) (Exec.within chain plain)
      fun _ _ => True := by
  have grafted := steady.graft inside
  have back (last : Machine)
      (carries : Machine.Carries bindings receivers
        { m with environment := m.environment.graft chain } last) :
      m.Carries bindings receivers
        { last with environment := last.environment.restore m.environment.current } := by
    have all := grafted.2.trans carries.spares
    exact ⟨carries.steady.restore (steady.current.grow all.grows),
      all.trans (last.spares_restore m.environment.current), rfl⟩
  rcases inner with ⟨name, last, stopped⟩ | ⟨same, carried⟩
  · exact .inl ⟨name, { last with environment := last.environment.restore m.environment.current },
      by simp only [Exec.within, stopped]⟩
  · cases result : plain { m with environment := m.environment.graft chain } with
    | ok a last =>
        rw [result] at same carried
        refine .inr ⟨by simp only [Exec.within, same, result], ?_⟩
        simp only [Exec.within, result]
        exact ⟨back last carried.1, trivial⟩
    | error stop last =>
        rw [result] at same carried
        refine .inr ⟨by simp only [Exec.within, same, result], ?_⟩
        simp only [Exec.within, result]
        exact back last carried

theorem deeper
    (inner : Together bindings receivers alarms { m with depth := m.depth + 1 } watched plain
      fun _ _ => True)
    (steady : m.Steady bindings receivers) :
    Together bindings receivers alarms m (Exec.deeper watched) (Exec.deeper plain)
      fun _ _ => True := by
  have down : m.Carries bindings receivers { m with depth := m.depth + 1 } :=
    steady.carries_of_eq rfl rfl rfl
  have back (last : Machine)
      (carries : Machine.Carries bindings receivers { m with depth := m.depth + 1 } last) :
      m.Carries bindings receivers { last with depth := last.depth - 1 } :=
    (down.trans carries).trans (carries.steady.carries_of_eq rfl rfl rfl)
  rcases inner with ⟨name, last, stopped⟩ | ⟨same, carried⟩
  · exact .inl ⟨name, { last with depth := last.depth - 1 }, by simp only [Exec.deeper, stopped]⟩
  · cases result : plain { m with depth := m.depth + 1 } with
    | ok a last =>
        rw [result] at same carried
        refine .inr ⟨by simp only [Exec.deeper, same, result], ?_⟩
        simp only [Exec.deeper, result]
        exact ⟨back last carried.1, trivial⟩
    | error stop last =>
        rw [result] at same carried
        refine .inr ⟨by simp only [Exec.deeper, same, result], ?_⟩
        simp only [Exec.deeper, result]
        exact back last carried

theorem map (f : α → β) (together : Together bindings receivers alarms m watched plain good) :
    Together bindings receivers alarms m (f <$> watched) (f <$> plain) fun _ _ => True := by
  rw [map_eq_pure_bind, map_eq_pure_bind]
  exact together.bind fun a after carries _ => pure carries.steady trivial

theorem repeatWhile {test plainTest : Exec Bool} {round plainRound : Exec Flow}
    (tests : ∀ after, m.Carries bindings receivers after →
      Together bindings receivers alarms after test plainTest fun _ _ => True)
    (runs : ∀ after, m.Carries bindings receivers after →
      Together bindings receivers alarms after round plainRound fun _ _ => True) :
    ∀ (rounds : Nat) (after : Machine), m.Carries bindings receivers after →
      Together bindings receivers alarms after (Exec.repeatWhile test round rounds)
        (Exec.repeatWhile plainTest plainRound rounds) fun _ _ => True
  | 0, after, carries => fail carries.steady .exhausted
  | rounds + 1, after, carries => by
      rw [Exec.repeatWhile_succ, Exec.repeatWhile_succ]
      refine (tests after carries).bind fun holds middle tested _ => ?_
      cases holds with
      | false => exact pure tested.steady trivial
      | true =>
          have there := carries.trans tested
          refine (runs middle there).bind fun flow last ran _ => ?_
          cases flow with
          | normal => exact repeatWhile tests runs rounds last (there.trans ran)
          | returned value => exact pure ran.steady trivial

end Together

variable {ctx : Context} {own : Option Slot} {self : Option InstanceId} {id : NodeId} {name : Token}

theorem ofOperator_carried (steady : m.Steady bindings receivers) (token : Token)
    (result : Except RuntimeFault Value) :
    Carried bindings receivers m (fun _ _ => True) (Exec.ofOperator token result m) := by
  cases result with
  | ok value => exact ⟨.refl steady, trivial⟩
  | error fault => exact Machine.Carries.refl steady

theorem print_carried (steady : m.Steady bindings receivers) (value : Value) :
    Carried bindings receivers m (fun _ _ => True) (Exec.print value m) := by
  change Carried bindings receivers m _ (Exec.write (m.text value ++ "\n") m)
  have shown (output : Sink) : m.Carries bindings receivers { m with output := output } :=
    steady.carries_of_eq rfl rfl rfl
  unfold Exec.write
  cases m.output.failure? (m.text value ++ "\n") with
  | none => exact ⟨shown _, trivial⟩
  | some failure => exact shown _

theorem receiver_carried (steady : m.Steady bindings receivers) (object : Value) (name : Token) :
    Carried bindings receivers m (fun _ _ => True) (Exec.receiver object name m) := by
  cases object with
  | «instance» id => exact ⟨.refl steady, trivial⟩
  | _ => exact Machine.Carries.refl steady

theorem checkArity_carried (steady : m.Steady bindings receivers) (expected found : Nat)
    (paren : Token) :
    Carried bindings receivers m (fun after _ => after = m)
      (Exec.checkArity expected found paren m) := by
  unfold Exec.checkArity
  split
  · exact ⟨.refl steady, rfl⟩
  · exact Machine.Carries.refl steady

theorem lookUp_carried (steady : m.Steady ctx.bindings receivers) (id : NodeId) (name : Token) :
    Carried ctx.bindings receivers m (fun _ _ => True) (Exec.lookUp ctx id name m) := by
  unfold Exec.lookUp
  dsimp only
  split
  · exact ⟨.refl steady, trivial⟩
  · exact Machine.Carries.refl steady

theorem declare_carried (steady : m.Steady ctx.bindings receivers)
    (free : Tidy.Free ctx.bindings receivers id) (name : Token) (value : Value) :
    Carried ctx.bindings receivers m (fun _ _ => True) (Exec.declare ctx id name value m) := by
  unfold Exec.declare
  cases bound : ctx.bindings.slot? id with
  | none => exact ⟨steady.carries_of_eq rfl rfl rfl, trivial⟩
  | some slot => exact ⟨steady.setCell _ (free slot bound) value, trivial⟩

theorem store_carried (steady : m.Steady ctx.bindings receivers)
    (free : Tidy.Free ctx.bindings receivers id) (name : Token) (value : Value) :
    Carried ctx.bindings receivers m (fun _ _ => True) (Exec.store ctx id name value m) := by
  unfold Exec.store
  cases bound : ctx.bindings.slot? id with
  | none =>
      dsimp only
      split
      · exact ⟨steady.carries_of_eq rfl rfl rfl, trivial⟩
      · exact Machine.Carries.refl steady
  | some slot =>
      dsimp only
      split
      · exact ⟨steady.setCell _ (free slot bound) value, trivial⟩
      · exact Machine.Carries.refl steady

/-- In the body of a method `this` is the receiver. -/
theorem findReceiver_together (other : FunctionId → List Value → Exec Value)
    (steady : m.Steady ctx.bindings receivers)
    (gives : m.environment.Gives receivers m.environment.current own self)
    (isOwn : ctx.bindings.slot? id = own) (keyword : Token) :
    Together ctx.bindings receivers alarms m
      (findReceiver alarms { ctx with call := other } self id keyword)
      (Exec.lookUp ctx id keyword) fun _ _ => True := by
  cases self with
  | none => exact (Together.same (lookUp_carried steady id keyword)).demand fun _ _ _ => rfl
  | some i =>
      obtain ⟨slot, same, -, held⟩ := gives i rfl
      have bound : ctx.bindings.slot? id = some slot := isOwn.trans same
      have held : m.environment.get? slot = some (.instance i) := held
      have found : Carried ctx.bindings receivers m (fun _ value => value = .instance i)
          (Exec.lookUp ctx id keyword m) := by
        simp only [Exec.lookUp, bound, held]
        exact ⟨.refl steady, rfl⟩
      refine (Together.same found).demand fun value after isReceiver => ?_
      rw [isReceiver]
      exact beq_self_eq_true i

/-- A method that may still be shared has no receiver. -/
theorem not_taken {thisSlot : Option Slot} {f : FunctionId}
    (shares : m.Shares bindings receivers thisSlot (.function f)) : m.isTaken f = false := by
  unfold Machine.isTaken FunctionObject.self?
  split
  · next isMethod =>
      rw [((shares f rfl).2 isMethod).1]
      rfl
  · rfl

/-- What a property stands for, if it is a function among the members of a class. -/
theorem shared?_eq_some {object : Value} {name : String} {f : FunctionId}
    (shared : m.shared? object name = some f) :
    ∃ id, object = .instance id ∧ (m.instanceAt id).fields.get? name = none ∧
      (m.classAt (m.instanceAt id).owner).members.get? name = some (.function f) := by
  cases object with
  | «instance» id =>
      unfold Machine.shared? at shared
      dsimp only at shared
      split at shared
      · next field member =>
          cases shared
          exact ⟨id, rfl, field, member⟩
      · cases shared
  | _ => cases shared

/-- Reading a property that is no function of a class leaves the machine as it is. -/
theorem getProperty_carried_of_not_shared (steady : m.Steady bindings receivers) {object : Value}
    {name : Token} (shared : m.shared? object name.lexeme = none) :
    Carried bindings receivers m (fun _ _ => True) (Exec.getProperty object name m) := by
  cases object with
  | «instance» id =>
      cases field : (m.instanceAt id).fields.get? name.lexeme with
      | some value =>
          simp only [Exec.getProperty, Machine.getProperty, field]
          exact ⟨.refl steady, trivial⟩
      | none =>
          cases member : (m.classAt (m.instanceAt id).owner).members.get? name.lexeme with
          | none =>
              simp only [Exec.getProperty, Machine.getProperty, field, member]
              exact Machine.Carries.refl steady
          | some value =>
              cases value with
              | function f =>
                  simp only [Machine.shared?, field, member] at shared
                  cases shared
              | _ =>
                  simp only [Exec.getProperty, Machine.getProperty, field, member]
                  exact ⟨.refl steady, trivial⟩
  | _ => exact Machine.Carries.refl steady

/-- A method that is read has its object as receiver. -/
theorem getProperty_carried_of_shared (steady : m.Steady bindings receivers) {object : Value}
    {name : Token} {f : FunctionId} (shared : m.shared? object name.lexeme = some f) :
    Carried bindings receivers m (fun after value => after.isReadFrom object value = true)
      (Exec.getProperty object name m) := by
  obtain ⟨id, rfl, field, member⟩ := shared?_eq_some shared
  have shares := steady.members _ _ _ member
  cases thisSlot : (m.classAt (m.instanceAt id).owner).thisSlot with
  | none =>
      simp only [Exec.getProperty, Machine.getProperty, field, member, thisSlot]
      refine ⟨.refl steady, ?_⟩
      rw [thisSlot] at shares
      have unread := (shares f rfl).2
      cases isMethod : (m.functionAt f).isMethod with
      | false =>
          rw [Machine.isReadFrom, isMethod]
          rfl
      | true =>
          obtain ⟨-, _, impossible, -⟩ := unread isMethod
          cases impossible
  | some slot =>
      rw [thisSlot] at shares
      simp only [Exec.getProperty, Machine.getProperty, field, member, thisSlot]
      refine ⟨steady.bindFunction f id slot (shares f rfl).2, ?_⟩
      change (_ || Option.any _ ((m.bindFunction f id slot).2.functionAt
        (m.bindFunction f id slot).1).receiver) = true
      rw [Machine.functionAt_bindFunction]
      simp [Value.isInstance]

/-- No method that has a receiver is bound when a property is read, and one that is bound gets the object as
its receiver. -/
theorem getProperty_together (steady : m.Steady bindings receivers) (object : Value)
    (name : Token) :
    Together bindings receivers alarms m (getProperty alarms object name)
      (Exec.getProperty object name) fun _ _ => True := by
  cases shared : m.shared? object name.lexeme with
  | none =>
      refine Together.of_eq ?_ (Together.same (getProperty_carried_of_not_shared steady shared))
      simp only [getProperty, shared]
  | some f =>
      obtain ⟨id, -, -, member⟩ := shared?_eq_some shared
      have untaken := not_taken (steady.members _ _ _ member)
      have read : Together bindings receivers alarms m _ _ _ :=
        Together.same (getProperty_carried_of_shared steady shared)
      refine Together.of_eq ?_ (read.demand fun _ _ isRead => isRead)
      simp only [getProperty, shared, untaken]
      rfl

/-- Calls go together. -/
def CallsTogether (bindings : Bindings) (receivers : Slot → Prop) (alarms : Alarms)
    (watched plain : FunctionId → List Value → Exec Value) : Prop :=
  ∀ (m : Machine) (id : FunctionId) (arguments : List Value), m.Steady bindings receivers →
    Together bindings receivers alarms m (watched id arguments) (plain id arguments)
      fun _ _ => True

section

variable {other : FunctionId → List Value → Exec Value}
  (calls : CallsTogether ctx.bindings receivers alarms other ctx.call)
include calls

theorem callFunction_together (steady : m.Steady ctx.bindings receivers) (id : FunctionId)
    (arguments : List Value) (paren : Token) :
    Together ctx.bindings receivers alarms m
      (Exec.callFunction { ctx with call := other } id arguments paren)
      (Exec.callFunction ctx id arguments paren) fun _ _ => True := by
  unfold Exec.callFunction
  apply Together.get_bind
  split
  · exact Together.fail steady _
  · exact calls m id arguments steady

/-- No method that has a receiver is bound when an instance is made. -/
theorem construct_together (steady : m.Steady ctx.bindings receivers) (id : ClassId)
    (arguments : List Value) (paren : Token) :
    Together ctx.bindings receivers alarms m
      (construct alarms { ctx with call := other } id arguments paren)
      (Exec.construct ctx id arguments paren) fun _ _ => True := by
  have unwatched : Together ctx.bindings receivers alarms m
      (Exec.construct { ctx with call := other } id arguments paren)
      (Exec.construct ctx id arguments paren) fun _ _ => True := by
    unfold Exec.construct
    refine Together.get_bind (Together.get_bind (Together.get_bind ?_))
    refine (Together.same (checkArity_carried steady _ _ _)).bind fun _ checked _ same => ?_
    rw [same]
    have added : m.Carries ctx.bindings receivers (m.addInstance id).2 :=
      steady.carries_of_eq rfl rfl rfl
    apply Together.modifyGet_bind added
    cases initial : m.initializer? (m.classAt id) with
    | none => exact Together.pure added.steady trivial
    | some f =>
        have shares := (steady.members _ _ _ (member_of_initializer initial)).grow added.spares.grows
        cases thisSlot : (m.classAt id).thisSlot with
        | none => exact Together.pure added.steady trivial
        | some slot =>
            rw [thisSlot] at shares
            have bound := added.steady.bindFunction f (m.addInstance id).1 slot (shares f rfl).2
            apply Together.modifyGet_bind bound
            exact (callFunction_together calls bound.steady _ _ _).bind fun _ _ carries _ =>
              Together.pure carries.steady trivial
  have untaken : (m.initializer? (m.classAt id)).any m.isTaken = false := by
    cases initial : m.initializer? (m.classAt id) with
    | none => rfl
    | some f => exact not_taken (steady.members _ _ _ (member_of_initializer initial))
  refine Together.of_eq ?_ unwatched
  unfold construct
  rw [untaken]
  rfl

theorem invoke_together (steady : m.Steady ctx.bindings receivers) (callee : Value)
    (arguments : List Value) (paren : Token) :
    Together ctx.bindings receivers alarms m
      (invoke alarms { ctx with call := other } callee arguments paren)
      (Exec.invoke ctx callee arguments paren) fun _ _ => True := by
  cases callee with
  | function id =>
      unfold invoke Exec.invoke
      apply Together.get_bind
      refine (Together.same (checkArity_carried steady _ _ _)).bind fun _ checked _ same => ?_
      rw [same]
      exact callFunction_together calls steady id arguments paren
  | «class» id => exact construct_together calls steady id arguments paren
  | _ => exact Together.fail steady _

end

/-- Values that may be the members of a class with a given slot for the receiver. -/
def SharesTable (bindings : Bindings) (receivers : Slot → Prop) (thisSlot : Option Slot)
    (m : Machine) (table : Table String Value) : Prop :=
  ∀ name value, table.get? name = some value → m.Shares bindings receivers thisSlot value

section

variable {thisSlot : Option Slot} {table : Table String Value} {after : Machine}

theorem SharesTable.grow (shares : SharesTable bindings receivers thisSlot m table)
    (grows : m.Grows after) : SharesTable bindings receivers thisSlot after table :=
  fun name value found => (shares name value found).grow grows

theorem SharesTable.insert (shares : SharesTable bindings receivers thisSlot m table)
    (name : String) {value : Value} (own : m.Shares bindings receivers thisSlot value) :
    SharesTable bindings receivers thisSlot m (table.insert name value) := by
  intro wanted held found
  rw [Table.get?_insert] at found
  split at found
  · cases found
    exact own
  · exact shares wanted held found

/-- A method that has just been declared has not been read. -/
theorem shares_addFunction {slot : Slot} (receives : receivers slot) {decl : FunctionDecl}
    (tidy : Tidy.function bindings receivers (some slot) decl) (closure : Chain) :
    (m.addFunction ⟨decl, closure, none⟩).2.Shares bindings receivers (some slot)
      (.function (m.addFunction ⟨decl, closure, none⟩).1) := by
  intro id same
  cases same
  have made : (m.addFunction ⟨decl, closure, none⟩).2.functionAt m.functions.size =
      ⟨decl, closure, none⟩ := by
    rw [Machine.functionAt_addFunction, if_pos rfl]
  change _ ∧ (((m.addFunction ⟨decl, closure, none⟩).2.functionAt m.functions.size).isMethod = true →
    ((m.addFunction ⟨decl, closure, none⟩).2.functionAt m.functions.size).Unread _ _ _)
  rw [made]
  refine ⟨?_, fun _ => ⟨rfl, slot, rfl, receives, tidy⟩⟩
  simp only [Machine.addFunction, Array.size_push]
  exact Nat.lt_succ_self _

theorem addMethods_together {slot : Slot} (receives : receivers slot) (closure : Chain) :
    ∀ (decls : List FunctionDecl) (m : Machine) (table : Table String Value),
      m.Steady bindings receivers → m.environment.Within closure →
        Tidy.functions bindings receivers (some slot) decls →
          SharesTable bindings receivers (some slot) m table →
            Together bindings receivers alarms m (Exec.addMethods closure table decls)
              (Exec.addMethods closure table decls)
              fun last table => SharesTable bindings receivers (some slot) last table
  | [], _, _, steady, _, _, shares => Together.pure steady shares
  | method :: rest, m, table, steady, within, tidy, shares => by
      rw [Exec.addMethods]
      cases named : method.name with
      | none => exact addMethods_together receives closure rest m table steady within tidy.2 shares
      | some name =>
          have object : FunctionObject.Steady bindings receivers m.environment
              ⟨method, closure, none⟩ := by
            refine ⟨within, some slot, tidy.1, ?_⟩
            have self : FunctionObject.self? ⟨method, closure, none⟩ = none := ite_self none
            rw [self]
            exact Environment.gives_none _ _ _
          have added := steady.addFunction object
          apply Together.modifyGet_bind added
          exact addMethods_together receives closure rest _ _ added.steady
            (within.grow added.spares.grows) tidy.2
            ((shares.grow added.spares.grows).insert _ (shares_addFunction receives tidy.1 closure))

end

end Lox.Watched
