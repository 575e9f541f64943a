import Lox.Proofs.Switch.Beside

set_option autoImplicit false

/-! The steps of code, taken beside each other. Functions that are made stand where their code is known, and
variables whose names stand in a source are looked up and written outside all veiled cells. -/

namespace Lox

variable {known : Site → Prop} {veiled : Slot → Prop} {m n : Machine} {α β : Type}

namespace Exec

theorem beside_fail (fault : RuntimeFault) (token : Token) :
    Beside known veiled (fail fault token : Exec α) (fail fault token) :=
  .throw _

theorem beside_ofOperator (token : Token) (result : Except RuntimeFault Value) :
    Beside known veiled (ofOperator token result) (ofOperator token result) := by
  cases result with
  | ok value => exact .pure value
  | error fault => exact beside_fail fault token

theorem beside_write (text : String) : Beside known veiled (write text) (write text) := by
  refine .silent (fun m frames => ?_) (fun m => ?_) fun m => ?_
  · have output : (m.withFrames frames).output = m.output := rfl
    unfold write
    rw [output]
    cases m.output.failure? text <;> rfl
  · unfold write
    cases m.output.failure? text <;> rfl
  · unfold write
    cases m.output.failure? text <;> rfl

theorem beside_print (value : Value) : Beside known veiled (print value) (print value) :=
  .get_bind (fun _ _ => rfl) fun _ _ => beside_write _

theorem beside_flush : Beside known veiled flush flush := by
  refine .silent (fun m frames => ?_) (fun m => ?_) fun m => ?_
  · have output : (m.withFrames frames).output = m.output := rfl
    unfold flush
    rw [output]
    cases m.output.flushFailure? <;> rfl
  · unfold flush
    cases m.output.flushFailure? <;> rfl
  · unfold flush
    cases m.output.flushFailure? <;> rfl

theorem beside_receiver (object : Value) (name : Token) :
    Beside known veiled (receiver object name) (receiver object name) := by
  cases object with
  | «instance» id => exact .pure id
  | _ => exact beside_fail .fieldOfOther name

theorem beside_setField (id : InstanceId) (name : String) (value : Value) :
    Beside known veiled (modify (·.setField id name value)) (modify (·.setField id name value)) :=
  .modify (fun _ _ => rfl) (fun _ => rfl) fun _ => rfl

theorem beside_checkArity (expected found : Nat) (paren : Token) :
    Beside known veiled (checkArity expected found paren) (checkArity expected found paren) := by
  unfold checkArity
  split
  · exact .pure ()
  · exact beside_fail _ paren

theorem beside_capture : Beside known veiled capture capture := by
  intro m n alike stands
  change Ended known veiled m (.ok m.environment.current m) (.ok n.environment.current n)
  rw [alike.current]
  exact .ok ⟨alike, stands, .refl m⟩

/-! ### Functions -/

theorem beside_addFunction {object : FunctionObject} (own : object.decl.Stands known) :
    Beside known veiled (modifyGet (·.addFunction object)) (modifyGet (·.addFunction object)) := by
  intro m n alike stands
  have same : (n.addFunction object).1 = (m.addFunction object).1 := by
    rw [alike.rest]
    rfl
  have there := alike.blind (fun m => (m.addFunction object).2) (fun _ _ => rfl) fun _ => rfl
  change Ended known veiled m (.ok (m.addFunction object).1 (m.addFunction object).2)
    (.ok (n.addFunction object).1 (n.addFunction object).2)
  rw [same]
  exact .ok ⟨there, stands.addFunction own, .of_environment rfl⟩

theorem beside_close {decl : FunctionDecl} (own : decl.Stands known) :
    Beside known veiled (close decl) (close decl) := by
  have same : close decl = (do
      let chain ← capture
      let id ← modifyGet (·.addFunction ⟨decl, chain, none⟩)
      return .function id) := rfl
  rw [same]
  exact beside_capture.bind fun chain => (beside_addFunction own).bind fun id => .pure _

theorem beside_addMethods (closure : Chain) : ∀ (decls : List FunctionDecl) (members : Table String Value),
    (∀ decl ∈ decls, decl.Stands known) →
      Beside known veiled (addMethods closure members decls) (addMethods closure members decls)
  | [], members, _ => .pure members
  | method :: rest, members, all => by
    obtain ⟨own, others⟩ := List.forall_mem_cons.mp all
    unfold addMethods
    cases method.name with
    | none => exact beside_addMethods closure rest members others
    | some name =>
      exact (beside_addFunction own).bind fun id => beside_addMethods closure rest _ others

/-- The chain of the next new frame within a chain. -/
def nextWithin (chain : Chain) : Exec Chain := fun m =>
  .ok (m.environment.inner chain) m

theorem beside_nextWithin (chain : Chain) :
    Beside known veiled (nextWithin chain) (nextWithin chain) := by
  intro m n alike stands
  unfold nextWithin
  rw [alike.inner]
  exact .ok ⟨alike, stands, .refl m⟩

theorem beside_push (cells : Frame) :
    Beside known veiled (modify fun m => { m with environment := m.environment.push cells })
      (modify fun m => { m with environment := m.environment.push cells }) :=
  fun m _ alike stands =>
    .ok ⟨alike.push cells, stands.of_functions rfl, m.saves_push cells⟩

/-- A function that is bound to an instance has the code that it had, and gets a new frame. -/
theorem beside_bindFunction (id : FunctionId) (receiver : InstanceId) (slot : Slot) :
    Beside known veiled (modifyGet (·.bindFunction id receiver slot))
      (modifyGet (·.bindFunction id receiver slot)) := by
  have same : (modifyGet (·.bindFunction id receiver slot) : Exec FunctionId) = (do
      let m : Machine ← get
      let closure ← nextWithin (m.functionAt id).closure
      modify fun m =>
        { m with environment := m.environment.push (Environment.cell slot (.instance receiver)) }
      modifyGet (·.addFunction { m.functionAt id with closure, receiver := some receiver })) := rfl
  rw [same]
  refine .get_bind (fun _ _ => rfl) fun m stands => ?_
  refine (beside_nextWithin _).bind fun closure => (beside_push _).bind fun _ => ?_
  exact beside_addFunction (stands id)

theorem getProperty_instance (id : InstanceId) (name : Token) :
    getProperty (.instance id) name = (do
      let m : Machine ← get
      let owner := m.classAt (m.instanceAt id).owner
      match (m.instanceAt id).fields.get? name.lexeme with
      | some value => return value
      | none =>
        match owner.members.get? name.lexeme, owner.thisSlot with
        | some (.function f), some slot => .function <$> modifyGet (·.bindFunction f id slot)
        | some value, _ => return value
        | none, _ => fail (.undefinedProperty name.lexeme) name) := by
  funext m
  simp only [getProperty, Machine.getProperty, Outcome.bind_of_ok (rfl : (get : Exec Machine) m = .ok m m)]
  cases (m.instanceAt id).fields.get? name.lexeme with
  | some value => rfl
  | none =>
    cases (m.classAt (m.instanceAt id).owner).members.get? name.lexeme with
    | none => rfl
    | some value =>
      cases (m.classAt (m.instanceAt id).owner).thisSlot with
      | none => cases value <;> rfl
      | some slot => cases value <;> rfl

theorem beside_getProperty (object : Value) (name : Token) :
    Beside known veiled (getProperty object name) (getProperty object name) := by
  cases object with
  | «instance» id =>
    rw [getProperty_instance]
    refine .get_bind (fun _ _ => rfl) fun m _ => ?_
    dsimp only
    split
    · exact .pure _
    · split
      · exact (beside_bindFunction _ id _).map _
      · exact .pure _
      · exact beside_fail _ name
  | _ => exact beside_fail .propertyOfOther name

/-! ### Variables -/

end Exec

/-- What a node stands for is outside all veiled cells. -/
def Bindings.Clear (bindings : Bindings) (veiled : Slot → Prop) (id : NodeId) : Prop :=
  ∀ slot, bindings.slot? id = some slot → ¬veiled slot

namespace Machine

theorem AlikeBut.get? (alike : m.AlikeBut veiled n) {slot : Slot} (unveiled : ¬veiled slot) :
    n.environment.get? slot = m.environment.get? slot := by
  unfold Environment.get? Environment.read?
  rw [alike.current]
  exact congrArg (fun look => List.findSome? look _)
    (funext fun id => alike.cells id slot unveiled)

theorem AlikeBut.find? (alike : m.AlikeBut veiled n) {slot : Slot} (unveiled : ¬veiled slot) :
    n.environment.find? n.environment.current slot = m.environment.find? m.environment.current slot := by
  unfold Environment.find? Table.contains
  rw [alike.current]
  exact congrArg (fun look => List.find? look _)
    (funext fun id => congrArg Option.isSome (alike.cells id slot unveiled))

/-- A cell that is not veiled is written on both sides. -/
theorem AlikeBut.moves_setCell (alike : m.AlikeBut veiled n) (stands : m.Stands known) (id : FrameId)
    {slot : Slot} (unveiled : ¬veiled slot) (value : Value) :
    m.Moves known veiled { m with environment := m.environment.setCell id slot value }
      { n with environment := n.environment.setCell id slot value } :=
  ⟨alike.setCell id slot value, stands.of_functions rfl, m.saves_setCell id value unveiled⟩

theorem AlikeBut.moves_defineGlobal (alike : m.AlikeBut veiled n) (stands : m.Stands known)
    (name : String) (value : Value) :
    m.Moves known veiled { m with environment := m.environment.defineGlobal name value }
      { n with environment := n.environment.defineGlobal name value } := by
  refine ⟨alike.of_environments ?_ alike.size alike.cells, stands.of_functions rfl,
    ⟨Nat.le_refl _, fun _ _ _ _ => rfl⟩, rfl⟩
  rw [alike.rest]
  rfl

theorem AlikeBut.moves_bindParams (bindings : Bindings) : ∀ (params : List Param) (values : List Value)
    {m n : Machine}, m.AlikeBut veiled n → m.Stands known →
      (∀ param ∈ params, bindings.Clear veiled param.id) →
        m.Moves known veiled
          { m with environment := Exec.bindParams bindings m.environment params values }
          { n with environment := Exec.bindParams bindings n.environment params values }
  | [], _, m, _, alike, stands, _ => ⟨alike, stands, .refl m⟩
  | _ :: _, [], m, _, alike, stands, _ => ⟨alike, stands, .refl m⟩
  | param :: params, value :: values, m, n, alike, stands, clear => by
    obtain ⟨own, others⟩ := List.forall_mem_cons.mp clear
    unfold Exec.bindParams
    cases bound : bindings.slot? param.id with
    | none => exact moves_bindParams bindings params values alike stands others
    | some slot =>
      have defined := alike.moves_setCell stands m.environment.current.frame (own slot bound) value
      have same : n.environment.define slot value =
          n.environment.setCell m.environment.current.frame slot value := by
        unfold Environment.define
        rw [alike.current]
      dsimp only
      rw [same]
      exact (moves_bindParams bindings params values defined.alike defined.stands others).since
        defined.saves

end Machine

namespace Exec

variable {ctx : Context} {id : NodeId}

theorem beside_lookUp (clear : ctx.bindings.Clear veiled id) (name : Token) :
    Beside known veiled (lookUp ctx id name) (lookUp ctx id name) := by
  intro m n alike stands
  have ends (found : Option Value) : Ended known veiled m
      (match found with
        | some value => .ok value m
        | none => fail (.undefinedVariable name.lexeme) name m)
      (match found with
        | some value => .ok value n
        | none => fail (.undefinedVariable name.lexeme) name n) := by
    cases found with
    | some value => exact .ok ⟨alike, stands, .refl m⟩
    | none => exact beside_fail _ name m n alike stands
  unfold lookUp
  cases bound : ctx.bindings.slot? id with
  | some slot =>
    dsimp only
    rw [alike.get? (clear slot bound)]
    exact ends _
  | none =>
    dsimp only
    unfold Environment.getGlobal?
    rw [alike.globals]
    exact ends _

theorem beside_store (clear : ctx.bindings.Clear veiled id) (name : Token) (value : Value) :
    Beside known veiled (store ctx id name value) (store ctx id name value) := by
  intro m n alike stands
  unfold store
  cases bound : ctx.bindings.slot? id with
  | some slot =>
    dsimp only
    rw [alike.find? (clear slot bound)]
    cases m.environment.find? m.environment.current slot with
    | some frame => exact .ok (alike.moves_setCell stands frame (clear slot bound) value)
    | none => exact beside_fail _ name m n alike stands
  | none =>
    dsimp only
    rw [alike.globals]
    split
    · exact .ok (alike.moves_defineGlobal stands name.lexeme value)
    · exact beside_fail _ name m n alike stands

theorem beside_declare (clear : ctx.bindings.Clear veiled id) (name : Token) (value : Value) :
    Beside known veiled (declare ctx id name value) (declare ctx id name value) := by
  intro m n alike stands
  unfold declare Environment.define
  cases bound : ctx.bindings.slot? id with
  | some slot =>
    dsimp only
    rw [alike.current]
    exact .ok (alike.moves_setCell stands _ (clear slot bound) value)
  | none => exact .ok (alike.moves_defineGlobal stands name.lexeme value)

/-! ### Calls -/

section

variable {other : FunctionId → List Value → Exec Value}
  (calls : ∀ id arguments, Beside known veiled (ctx.call id arguments) (other id arguments))
include calls

theorem beside_callFunction (id : FunctionId) (arguments : List Value) (paren : Token) :
    Beside known veiled (callFunction ctx id arguments paren)
      (callFunction { ctx with call := other } id arguments paren) := by
  refine .get_bind (fun _ _ => rfl) fun m _ => ?_
  dsimp only
  split
  · exact beside_fail .tooDeep paren
  · exact calls id arguments

theorem beside_construct (id : ClassId) (arguments : List Value) (paren : Token) :
    Beside known veiled (construct ctx id arguments paren)
      (construct { ctx with call := other } id arguments paren) := by
  unfold construct
  refine .get_bind (fun _ _ => rfl) fun first _ => ?_
  refine .get_bind (fun _ _ => rfl) fun second _ => ?_
  refine .get_bind (fun _ _ => rfl) fun third _ => ?_
  refine (beside_checkArity _ _ paren).bind fun _ => ?_
  refine (Beside.silent (fun _ _ => rfl) (fun _ => rfl) fun _ => rfl).bind fun fresh => ?_
  split
  · exact (beside_bindFunction _ fresh _).bind fun bound =>
      (beside_callFunction calls bound arguments paren).bind fun _ => .pure _
  · exact .pure _

theorem beside_invoke (callee : Value) (arguments : List Value) (paren : Token) :
    Beside known veiled (invoke ctx callee arguments paren)
      (invoke { ctx with call := other } callee arguments paren) := by
  cases callee with
  | function id =>
    refine .get_bind (fun _ _ => rfl) fun m _ => ?_
    exact (beside_checkArity _ _ paren).bind fun _ => beside_callFunction calls id arguments paren
  | «class» id => exact beside_construct calls id arguments paren
  | _ => exact beside_fail .notCallable paren

end

end Exec
end Lox
