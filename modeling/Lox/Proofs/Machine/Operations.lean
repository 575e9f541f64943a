import Lox.Proofs.Machine.Keeps

set_option autoImplicit false

/-! The operations of the two interpreters end alike on sound machines: a variable with a slot is found if
the chain holds its slot, what is read may be used, and a function that is called gets a frame in which
its body can run. -/

namespace Lox

/-- An operator yields no function and finds no variable undefined. -/
def Value.PlainResult : Except RuntimeFault Value → Prop
  | .ok value => ∀ id, value ≠ .function id
  | .error fault => ∀ name, fault ≠ .undefinedVariable name

theorem Value.plainResult_applyUnary (operator : Token.Kind) (right : Value) :
    PlainResult (right.applyUnary operator) := by
  unfold applyUnary
  split
  · split <;> nofun
  · nofun
  · nofun

theorem Value.plainResult_applyNumeric (operator : Token.Kind) (a b : Float) :
    PlainResult (applyNumeric operator a b) := by
  unfold applyNumeric
  split <;> nofun

theorem Value.plainResult_applyBinary (operator : Token.Kind) (left right : Value) :
    PlainResult (left.applyBinary operator right) := by
  unfold applyBinary
  split
  · split <;> nofun
  · nofun
  · nofun
  · split
    · exact plainResult_applyNumeric _ _ _
    · nofun

variable {known : Site → Prop} {m : Machine} {path : Path} {ctx : Context}

theorem ofOperator_keeps {bindings : Bindings} (sound : m.Sound known bindings) (token : Token)
    {result : Except RuntimeFault Value} (isPlain : Value.PlainResult result) :
    Keeps known bindings m (Exec.ofOperator token result) (Exec.ofOperator token result)
      fun last value => last.Backs known bindings value := by
  cases result with
  | ok value => exact Keeps.pure sound (Machine.backs_of_other isPlain)
  | error fault => exact Keeps.fail sound token isPlain

theorem print_keeps {bindings : Bindings} (sound : m.Sound known bindings) (value : Value) :
    Keeps known bindings m (Exec.print value) (Exec.print value) fun _ _ => True := by
  refine ⟨rfl, ?_⟩
  change Kept known bindings m _ (Exec.write (m.text value ++ "\n") m)
  unfold Exec.write
  cases m.output.failure? (m.text value ++ "\n") with
  | none => exact ⟨sound.accept _, trivial⟩
  | some failure => exact ⟨sound.accept _, blamed_of_other nofun⟩

/-- The slot of a node that names something is held when the node is evaluated. -/
theorem Machine.Ready.holds (ready : m.Ready known ctx.bindings path) {id : NodeId} {name : Token}
    (means : ctx.bindings.Means path name.lexeme id)
    (notField : name.lexeme = thisName → path.inField = false) {slot : Slot}
    (bound : ctx.bindings.slot? id = some slot) :
    m.environment.Holds m.environment.current slot := by
  unfold Bindings.Means at means
  cases declared : path.declaration? name.lexeme with
  | none =>
      rw [declared] at means
      rw [bound] at means
      cases means
  | some declaration =>
      rw [declared] at means
      obtain ⟨own, declaredSlot, sameSlot⟩ := means
      obtain ⟨held, heldSlot, holds⟩ := ready.covers name.lexeme declaration declared notField
      have first : own = held := Option.some.inj (declaredSlot.symm.trans heldSlot)
      have second : own = slot := Option.some.inj (sameSlot.symm.trans bound)
      rw [← second, first]
      exact holds

section

variable (alarm : Guarded.Alarm) (other : FunctionId → List Value → Exec Value) {site : Site}
  {id : NodeId} {name : Token}

theorem lookUp_keeps (sound : m.Sound known ctx.bindings) (isKnown : known site)
    (named : site.mention.named? = some (id, name))
    (holds : ∀ slot, ctx.bindings.slot? id = some slot →
      m.environment.Holds m.environment.current slot) :
    Keeps known ctx.bindings m (Guarded.lookUp alarm { ctx with call := other } id name)
      (Exec.lookUp ctx id name) fun last value => last.Backs known ctx.bindings value := by
  cases bound : ctx.bindings.slot? id with
  | none =>
      cases found : m.environment.getGlobal? name.lexeme with
      | some value =>
          constructor
          · simp only [Guarded.lookUp, Exec.lookUp, bound, found]
          · simp only [Exec.lookUp, bound, found]
            exact ⟨Machine.Steps.refl sound, sound.globals _ _ found⟩
      | none =>
          constructor
          · simp only [Guarded.lookUp, Exec.lookUp, bound, found]
          · simp only [Exec.lookUp, bound, found]
            refine ⟨Machine.Steps.refl sound, fun wanted token same => ?_⟩
            cases same
            exact ⟨site, id, isKnown, named, bound, rfl⟩
  | some slot =>
      obtain ⟨frame, there⟩ := Option.isSome_iff_exists.mp
        (Environment.find?_isSome_iff.mpr (holds slot bound))
      obtain ⟨before, after, split, held, -⟩ := Environment.find?_eq_some_iff.mp there
      obtain ⟨value, isValue⟩ := Option.isSome_iff_exists.mp held
      have found : m.environment.get? slot = some value :=
        (Environment.read?_of_find? there).trans isValue
      constructor
      · simp only [Guarded.lookUp, bound, there]
        rfl
      · simp only [Exec.lookUp, bound, found]
        exact ⟨Machine.Steps.refl sound, sound.cells _ _ _ isValue⟩

theorem store_keeps (sound : m.Sound known ctx.bindings) {value : Value}
    (backs : m.Backs known ctx.bindings value) (isKnown : known site)
    (named : site.mention.named? = some (id, name))
    (holds : ∀ slot, ctx.bindings.slot? id = some slot →
      m.environment.Holds m.environment.current slot) :
    Keeps known ctx.bindings m (Guarded.store alarm { ctx with call := other } id name value)
      (Exec.store ctx id name value) fun _ _ => True := by
  cases bound : ctx.bindings.slot? id with
  | none =>
      constructor
      · simp only [Guarded.store, Exec.store, bound]
      · simp only [Exec.store, bound]
        split
        · exact ⟨sound.defineGlobal _ backs, trivial⟩
        · refine ⟨Machine.Steps.refl sound, fun wanted token same => ?_⟩
          cases same
          exact ⟨site, id, isKnown, named, bound, rfl⟩
  | some slot =>
      obtain ⟨frame, there⟩ := Option.isSome_iff_exists.mp
        (Environment.find?_isSome_iff.mpr (holds slot bound))
      constructor
      · simp only [Guarded.store, Exec.store, bound, there]
      · simp only [Exec.store, bound, there]
        exact ⟨sound.setCell _ _ backs, trivial⟩

end

theorem declare_keeps (other : FunctionId → List Value → Exec Value)
    (sound : m.Sound known ctx.bindings) (id : NodeId) (name : Token) {value : Value}
    (backs : m.Backs known ctx.bindings value) :
    Keeps known ctx.bindings m (Exec.declare { ctx with call := other } id name value)
      (Exec.declare ctx id name value) fun last _ => ∀ slot,
        ctx.bindings.slot? id = some slot → last.environment.Holds m.environment.current slot := by
  refine ⟨rfl, ?_⟩
  cases bound : ctx.bindings.slot? id with
  | none =>
      simp only [Exec.declare, bound]
      exact ⟨sound.defineGlobal _ backs, nofun⟩
  | some slot =>
      simp only [Exec.declare, bound]
      refine ⟨sound.setCell _ _ backs, fun wanted same => ?_⟩
      cases same
      exact sound.defined slot value

/-- A function that is declared sees its own name, since its variable is held by the frame of the
declaration as soon as the function is. -/
theorem declareFunction_keeps (other : FunctionId → List Value → Exec Value)
    (ready : m.Ready known ctx.bindings path) {id : NodeId} {name : Token} {decl : FunctionDecl}
    (bound : Site.Bound ctx.bindings ⟨path, .declaration id name⟩)
    (sites : ∀ site ∈ Sites.function .function (.own id name :: path) decl, known site)
    (regular : Regular.function decl) :
    Keeps known ctx.bindings m
      (do Exec.declare { ctx with call := other } id name (← Exec.close decl))
      (do Exec.declare ctx id name (← Exec.close decl)) fun last _ => ∀ slot,
        ctx.bindings.slot? id = some slot → last.environment.Holds m.environment.current slot := by
  refine ⟨rfl, ?_⟩
  have added := ready.sound.addFunction ⟨decl, m.environment.current, none⟩
  have there := ready.steps added
  change Kept known ctx.bindings m _ (Exec.declare ctx id name _
    (m.addFunction ⟨decl, m.environment.current, none⟩).2)
  have isLocal : (ctx.bindings.slot? id).isSome = path.isLocal := bound
  cases slotOf : ctx.bindings.slot? id with
  | none =>
      rw [slotOf] at isLocal
      simp only [Exec.declare, slotOf]
      refine ⟨added.trans (added.sound.defineGlobal _ (Machine.backs_addFunction ?_)), nofun⟩
      exact ⟨_, _, sites, regular, ready.covers.own name fun impossible => by
        rw [← isLocal] at impossible
        cases impossible⟩
  | some slot =>
      simp only [Exec.declare, slotOf]
      have grows := Machine.grows_setCell (m.addFunction ⟨decl, m.environment.current, none⟩).2
        m.environment.current.frame slot
        (.function (m.addFunction ⟨decl, m.environment.current, none⟩).1)
      have held := ready.sound.defined slot
        (.function (m.addFunction ⟨decl, m.environment.current, none⟩).1)
      refine ⟨added.trans (added.sound.setCell_of_after _ _ (Machine.backs_of_added grows
        ⟨_, _, sites, regular, ?_⟩)), fun wanted same => ?_⟩
      · exact (there.covers.grow grows).own name fun _ => ⟨slot, slotOf, held⟩
      · cases same
        exact held

section

variable {bindings : Bindings}

theorem getProperty_keeps (sound : m.Sound known bindings) (object : Value) (name : Token) :
    Keeps known bindings m (Exec.getProperty object name) (Exec.getProperty object name)
      fun last value => last.Backs known bindings value := by
  refine ⟨rfl, ?_⟩
  cases object with
  | «instance» id =>
      cases own : (m.instanceAt id).fields.get? name.lexeme with
      | some value =>
          simp only [Exec.getProperty, Machine.getProperty, own]
          exact ⟨Machine.Steps.refl sound, sound.fields _ _ _ own⟩
      | none =>
          cases member : (m.classAt (m.instanceAt id).owner).members.get? name.lexeme with
          | none =>
              simp only [Exec.getProperty, Machine.getProperty, own, member]
              exact ⟨Machine.Steps.refl sound, blamed_of_other (by simp)⟩
          | some value =>
              have backs := sound.members _ _ _ member
              cases thisSlot : (m.classAt (m.instanceAt id).owner).thisSlot with
              | none =>
                  rw [thisSlot] at backs
                  simp only [Exec.getProperty, Machine.getProperty, own, member, thisSlot]
                  exact ⟨Machine.Steps.refl sound, backs.of_none⟩
              | some slot =>
                  rw [thisSlot] at backs
                  cases value with
                  | function f =>
                      simp only [Exec.getProperty, Machine.getProperty, own, member, thisSlot]
                      exact sound.bindFunction id backs
                  | _ =>
                      simp only [Exec.getProperty, Machine.getProperty, own, member]
                      exact ⟨Machine.Steps.refl sound, Machine.backs_of_other (by simp)⟩
  | _ => exact ⟨Machine.Steps.refl sound, blamed_of_other (by simp)⟩

theorem receiver_keeps (sound : m.Sound known bindings) (object : Value) (name : Token) :
    Keeps known bindings m (Exec.receiver object name) (Exec.receiver object name)
      fun _ _ => True := by
  cases object with
  | «instance» id => exact Keeps.pure sound trivial
  | _ => exact Keeps.fail sound name nofun

theorem checkArity_keeps (sound : m.Sound known bindings) (expected found : Nat) (paren : Token) :
    Keeps known bindings m (Exec.checkArity expected found paren)
      (Exec.checkArity expected found paren) fun last _ => last = m ∧ expected = found := by
  unfold Exec.checkArity
  split
  · next same => exact Keeps.pure sound ⟨rfl, same⟩
  · exact Keeps.fail sound paren nofun

end

/-- Calls of functions that may be called go alike. -/
def CallsAlike (known : Site → Prop) (bindings : Bindings)
    (guarded plain : FunctionId → List Value → Exec Value) : Prop :=
  ∀ (m : Machine) (id : FunctionId) (arguments : List Value), m.Sound known bindings →
    m.Backs known bindings (.function id) →
      (∀ value ∈ arguments, m.Backs known bindings value) →
        (m.functionAt id).arity = arguments.length →
          Keeps known bindings m (guarded id arguments) (plain id arguments)
            fun last value => last.Backs known bindings value

section

variable {other : FunctionId → List Value → Exec Value}
  (calls : CallsAlike known ctx.bindings other ctx.call)
include calls

theorem callFunction_keeps (sound : m.Sound known ctx.bindings) {id : FunctionId}
    (runs : m.Backs known ctx.bindings (.function id)) {arguments : List Value}
    (backs : ∀ value ∈ arguments, m.Backs known ctx.bindings value)
    (arity : (m.functionAt id).arity = arguments.length) (paren : Token) :
    Keeps known ctx.bindings m (Exec.callFunction { ctx with call := other } id arguments paren)
      (Exec.callFunction ctx id arguments paren)
      fun last value => last.Backs known ctx.bindings value := by
  unfold Exec.callFunction
  apply Keeps.get_bind
  split
  · exact Keeps.fail sound paren nofun
  · exact calls m id arguments sound runs backs arity

omit calls in
theorem member_of_initializer {object : ClassObject} {f : FunctionId}
    (found : m.initializer? object = some f) :
    object.members.get? "init" = some (.function f) := by
  unfold Machine.initializer? at found
  split at found
  · next id member =>
      split at found
      · cases found
        exact member
      · cases found
  · cases found

omit calls in
theorem decl_bindFunction (m : Machine) (id : FunctionId) (receiver : InstanceId) (slot : Slot) :
    ((m.bindFunction id receiver slot).2.functionAt (m.bindFunction id receiver slot).1).decl =
      (m.functionAt id).decl := by
  rw [Machine.functionAt_bindFunction]

theorem construct_keeps (sound : m.Sound known ctx.bindings) (id : ClassId)
    {arguments : List Value} (backs : ∀ value ∈ arguments, m.Backs known ctx.bindings value)
    (paren : Token) :
    Keeps known ctx.bindings m (Exec.construct { ctx with call := other } id arguments paren)
      (Exec.construct ctx id arguments paren)
      fun last value => last.Backs known ctx.bindings value := by
  unfold Exec.construct
  refine Keeps.get_bind (Keeps.get_bind (Keeps.get_bind ?_))
  refine (checkArity_keeps sound _ _ _).bind fun _ checked _ arity => ?_
  rw [arity.1]
  have added := sound.addInstance id
  apply Keeps.modifyGet_bind added
  cases initial : m.initializer? (m.classAt id) with
  | none => exact Keeps.pure added.sound (Machine.backs_instance _)
  | some f =>
      have backsMember := (sound.members _ _ _ (member_of_initializer initial)).grow added.grows
      cases thisSlot : (m.classAt id).thisSlot with
      | none => exact Keeps.pure added.sound (Machine.backs_instance _)
      | some slot =>
          rw [thisSlot] at backsMember
          have bound := added.sound.bindFunction (m.addInstance id).1 backsMember
          apply Keeps.modifyGet_bind bound.1
          refine (callFunction_keeps calls bound.1.sound bound.2
            (fun value member => (backs value member).grow (added.trans bound.1).grows)
            ?_ paren).bind fun _ last steps _ =>
              Keeps.pure steps.sound (Machine.backs_instance _)
          have same := arity.2
          simp only [Machine.arityOfClass, initial] at same
          rw [FunctionObject.arity, decl_bindFunction]
          exact same

theorem invoke_keeps (sound : m.Sound known ctx.bindings) {callee : Value}
    (runs : m.Backs known ctx.bindings callee) {arguments : List Value}
    (backs : ∀ value ∈ arguments, m.Backs known ctx.bindings value) (paren : Token) :
    Keeps known ctx.bindings m (Exec.invoke { ctx with call := other } callee arguments paren)
      (Exec.invoke ctx callee arguments paren)
      fun last value => last.Backs known ctx.bindings value := by
  unfold Exec.invoke
  cases callee with
  | function id =>
      apply Keeps.get_bind
      refine (checkArity_keeps sound _ _ _).bind fun _ checked _ arity => ?_
      rw [arity.1]
      exact callFunction_keeps calls sound runs backs arity.2 paren
  | «class» id => exact construct_keeps calls sound id backs paren
  | _ => exact Keeps.fail sound paren nofun

end

/-- The members of a class read so far may be used. -/
def Machine.BacksTable (known : Site → Prop) (bindings : Bindings) (m : Machine)
    (thisSlot : Option Slot) (table : Table String Value) : Prop :=
  ∀ name value, table.get? name = some value → m.BacksMember known bindings thisSlot value

section

variable {bindings : Bindings} {thisSlot : Option Slot} {table : Table String Value} {after : Machine}

theorem Machine.BacksTable.grow (backs : m.BacksTable known bindings thisSlot table)
    (grows : m.Grows after) : after.BacksTable known bindings thisSlot table :=
  fun name value found => (backs name value found).grow grows

theorem Machine.BacksTable.insert (backs : m.BacksTable known bindings thisSlot table)
    (name : String) {value : Value} (own : m.BacksMember known bindings thisSlot value) :
    m.BacksTable known bindings thisSlot (table.insert name value) := by
  intro wanted held found
  rw [Table.get?_insert] at found
  split at found
  · cases found
    exact own
  · exact backs wanted held found

theorem addMethods_keeps {thisId : NodeId} {slot : Slot} (bound : bindings.Binds thisId slot)
    (closure : Chain) :
    ∀ (decls : List FunctionDecl) (m : Machine) (table : Table String Value),
      m.Sound known bindings → m.environment.Covers bindings path closure →
        (∀ site ∈ Sites.methods (.members thisId :: path) decls, known site) →
          Regular.functions decls → m.BacksTable known bindings (some slot) table →
            Keeps known bindings m (Exec.addMethods closure table decls)
              (Exec.addMethods closure table decls)
              fun last table => last.BacksTable known bindings (some slot) table
  | [], m, table, sound, _, _, _, backs => Keeps.pure sound backs
  | method :: rest, m, table, sound, covers, sites, regular, backs => by
      have here := fun site member => sites site (List.mem_append_left _ member)
      have later := fun site member => sites site (List.mem_append_right _ member)
      rw [Exec.addMethods]
      cases named : method.name with
      | none =>
          exact addMethods_keeps bound closure rest m table sound covers later regular.2 backs
      | some name =>
          have steps := sound.addFunction ⟨method, closure, none⟩
          apply Keeps.modifyGet_bind steps
          refine addMethods_keeps bound closure rest _ _ steps.sound (covers.grow steps.grows) later
            regular.2 ((backs.grow steps.grows).insert _ (Machine.backsMember_addFunction ?_))
          exact ⟨path, _, thisId, slot, rfl, bound, here, regular.1, covers⟩

theorem bindParams_steps {role : FunctionKind} :
    ∀ (parameters : List Param) (arguments : List Value) (earlier : List Param) (m : Machine),
      m.Sound known bindings → (∀ value ∈ arguments, m.Backs known bindings value) →
        parameters.length = arguments.length →
          (∀ site ∈ Sites.params role path earlier parameters, site.Bound bindings) →
            m.environment.Covers bindings (.function role earlier [] :: path)
              m.environment.current →
              m.Steps known bindings { m with
                environment := Exec.bindParams bindings m.environment parameters arguments } ∧
              (Exec.bindParams bindings m.environment parameters arguments).Covers bindings
                (.function role (parameters.reverse ++ earlier) [] :: path) m.environment.current
  | [], [], earlier, m, sound, _, _, _, covers => ⟨Machine.Steps.refl sound, covers⟩
  | [], _ :: _, _, _, _, _, impossible, _, _ => nomatch impossible
  | _ :: _, [], _, _, _, _, impossible, _, _ => nomatch impossible
  | param :: rest, value :: values, earlier, m, sound, backs, same, sites, covers => by
      have declared : (bindings.slot? param.id).isSome = true :=
        sites ⟨.function role earlier [] :: path, .declaration param.id param.name⟩
          List.mem_cons_self
      obtain ⟨slot, bound⟩ := Option.isSome_iff_exists.mp declared
      have steps := sound.setCell m.environment.current.frame slot
        (backs value List.mem_cons_self)
      have held := sound.defined slot value
      have more := bindParams_steps rest values (param :: earlier)
        { m with environment := m.environment.define slot value } steps.sound
        (fun other member => (backs other (List.mem_cons_of_mem _ member)).grow steps.grows)
        (Nat.succ.inj same) (fun site member => sites site (List.mem_cons_of_mem _ member))
        ((covers.grow steps.grows).param ⟨slot, bound, held⟩)
      simp only [Exec.bindParams, bound]
      rw [List.reverse_cons, List.append_assoc, List.singleton_append]
      exact ⟨steps.trans more.1, more.2⟩

end

end Lox
