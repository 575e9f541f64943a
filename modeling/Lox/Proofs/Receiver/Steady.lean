import Lox.Proofs.Machine.Sound
import Lox.Proofs.Receiver.Tidy
import Lox.Proofs.Receiver.Watched

set_option autoImplicit false

/-! Steady machines. The chain of a method that has been read holds its receiver, in the slot of the class
that declares the method; and a method among the members of a class has no receiver yet. No step writes
to the slot of a receiver in a frame that exists, so what a chain holds there is settled when it is
made. -/

namespace Lox

section

variable (bindings : Bindings) (receivers : Slot → Prop)

/-- A chain holds the receiver of the method whose code it is for, in the slot that `this` has there. -/
def Environment.Gives (env : Environment) (chain : Chain) (own : Option Slot)
    (self : Option InstanceId) : Prop :=
  ∀ id, self = some id → ∃ slot, own = some slot ∧ receivers slot ∧
    env.read? chain slot = some (.instance id)

/-- All frames of a chain exist. -/
def Environment.Within (env : Environment) (chain : Chain) : Prop :=
  ∀ frame ∈ chain.frames, frame < env.frames.size

structure FunctionObject.Steady (env : Environment) (f : FunctionObject) : Prop where
  within : env.Within f.closure
  code : ∃ own, Tidy.function bindings receivers own f.decl ∧
    env.Gives receivers f.closure own f.self?

/-- A method that is declared in a class and has not been read. -/
def FunctionObject.Unread (thisSlot : Option Slot) (f : FunctionObject) : Prop :=
  f.receiver = none ∧ ∃ slot, thisSlot = some slot ∧ receivers slot ∧
    Tidy.function bindings receivers (some slot) f.decl

namespace Machine

/-- A value that may be a member of a class with a given slot for the receiver. -/
def Shares (m : Machine) (thisSlot : Option Slot) (value : Value) : Prop :=
  ∀ id, value = .function id → id < m.functions.size ∧
    ((m.functionAt id).isMethod = true →
      (m.functionAt id).Unread bindings receivers thisSlot)

structure Steady (m : Machine) : Prop where
  current : m.environment.Within m.environment.current
  functions : ∀ id, (m.functionAt id).Steady bindings receivers m.environment
  members : ∀ id name value, (m.classAt id).members.get? name = some value →
    m.Shares bindings receivers (m.classAt id).thisSlot value

/-- Functions are kept, and no receiver in a frame that exists is written over. -/
structure Spares (m after : Machine) : Prop where
  grows : m.Grows after
  cells : ∀ frame slot, frame < m.environment.frames.size → receivers slot →
    (after.environment.frame frame).get? slot = (m.environment.frame frame).get? slot

/-- A step that leaves a steady machine, writes over no receiver, and goes on in the same chain. -/
structure Carries (m after : Machine) : Prop where
  steady : after.Steady bindings receivers
  spares : m.Spares receivers after
  current : after.environment.current = m.environment.current

end Machine
end

variable {bindings : Bindings} {receivers : Slot → Prop} {m after : Machine} {chain : Chain}
  {own : Option Slot} {self : Option InstanceId} {value : Value}

theorem Environment.gives_none (env : Environment) (chain : Chain) (own : Option Slot) :
    env.Gives receivers chain own none :=
  nofun

theorem Environment.read?_eq_of_frames {one two : Environment} {slot : Slot}
    (same : ∀ frame ∈ chain.frames, (two.frame frame).get? slot = (one.frame frame).get? slot) :
    two.read? chain slot = one.read? chain slot := by
  unfold read?
  generalize chain.frames = frames at same
  induction frames with
  | nil => rfl
  | cons frame rest ih =>
      have parts := List.forall_mem_cons.mp same
      rw [List.findSome?_cons, List.findSome?_cons, parts.1, ih parts.2]

theorem Environment.Within.grow (within : m.environment.Within chain) (grows : m.Grows after) :
    after.environment.Within chain :=
  fun frame member => Nat.lt_of_lt_of_le (within frame member) grows.frames

theorem Environment.Gives.spare (gives : m.environment.Gives receivers chain own self)
    (within : m.environment.Within chain) (spares : m.Spares receivers after) :
    after.environment.Gives receivers chain own self := by
  intro id same
  obtain ⟨slot, isOwn, receives, held⟩ := gives id same
  refine ⟨slot, isOwn, receives, ?_⟩
  rw [read?_eq_of_frames fun frame member => spares.cells frame slot (within frame member) receives]
  exact held

theorem FunctionObject.Steady.spare {f : FunctionObject}
    (steady : f.Steady bindings receivers m.environment) (spares : m.Spares receivers after) :
    f.Steady bindings receivers after.environment := by
  obtain ⟨own, tidy, gives⟩ := steady.code
  exact ⟨steady.within.grow spares.grows, own, tidy, gives.spare steady.within spares⟩

namespace Machine

theorem Shares.grow {thisSlot : Option Slot} (shares : m.Shares bindings receivers thisSlot value)
    (grows : m.Grows after) : after.Shares bindings receivers thisSlot value := by
  intro id same
  obtain ⟨small, unread⟩ := shares id same
  rw [grows.functions id small]
  exact ⟨Nat.lt_of_lt_of_le small grows.size, unread⟩

theorem shares_of_isPlain (thisSlot : Option Slot) (isPlain : m.isPlain value = true) :
    m.Shares bindings receivers thisSlot value := by
  rintro id rfl
  obtain ⟨small, plain⟩ := Bool.and_eq_true_iff.mp isPlain
  refine ⟨of_decide_eq_true small, fun isMethod => ?_⟩
  rw [isMethod] at plain
  cases plain

theorem Spares.of_grows (grows : m.Grows after)
    (frames : after.environment.frames = m.environment.frames) : m.Spares receivers after := by
  refine ⟨grows, fun frame slot _ _ => ?_⟩
  rw [Environment.frame, frames]
  rfl

theorem Spares.refl (m : Machine) : m.Spares receivers m :=
  .of_grows (Grows.refl m) rfl

theorem Spares.trans {first second third : Machine} (one : first.Spares receivers second)
    (two : second.Spares receivers third) : first.Spares receivers third :=
  ⟨one.grows.trans two.grows, fun frame slot small receives =>
    (two.cells frame slot (Nat.lt_of_lt_of_le small one.grows.frames) receives).trans
      (one.cells frame slot small receives)⟩

theorem Carries.refl (steady : m.Steady bindings receivers) : m.Carries bindings receivers m :=
  ⟨steady, Spares.refl m, rfl⟩

theorem Carries.trans {first second third : Machine} (one : first.Carries bindings receivers second)
    (two : second.Carries bindings receivers third) : first.Carries bindings receivers third :=
  ⟨two.steady, one.spares.trans two.spares, two.current.trans one.current⟩

/-- Code that finds its receiver still does after a step. -/
theorem Carries.gives (carries : m.Carries bindings receivers after)
    (steady : m.Steady bindings receivers)
    (gives : m.environment.Gives receivers m.environment.current own self) :
    after.environment.Gives receivers after.environment.current own self := by
  rw [carries.current]
  exact gives.spare steady.current carries.spares

/-- A step that makes only steady functions, and classes whose methods are unread. -/
theorem Steady.carries (steady : m.Steady bindings receivers) (spares : m.Spares receivers after)
    (current : after.environment.current = m.environment.current)
    (functions : ∀ id, after.functionAt id = m.functionAt id ∨
      (after.functionAt id).Steady bindings receivers after.environment)
    (members : ∀ id, after.classAt id = m.classAt id ∨
      ∀ name value, (after.classAt id).members.get? name = some value →
        after.Shares bindings receivers (after.classAt id).thisSlot value) :
    m.Carries bindings receivers after := by
  refine ⟨⟨?_, fun id => ?_, fun id name value found => ?_⟩, spares, current⟩
  · rw [current]
    exact steady.current.grow spares.grows
  · rcases functions id with same | new
    · rw [same]
      exact (steady.functions id).spare spares
    · exact new
  · rcases members id with same | new
    · rw [same] at found ⊢
      exact (steady.members id name value found).grow spares.grows
    · exact new name value found

/-- A step that changes neither frames, functions nor classes. -/
theorem Steady.carries_of_eq (steady : m.Steady bindings receivers)
    (environment : after.environment = { m.environment with globals := after.environment.globals })
    (functions : after.functions = m.functions) (classes : after.classes = m.classes) :
    m.Carries bindings receivers after := by
  have frames : after.environment.frames = m.environment.frames := by
    rw [environment]
  refine steady.carries (.of_grows (Grows.of_eq functions frames) frames) ?_ (fun id => .inl ?_)
    fun id => .inl ?_
  · rw [environment]
  · rw [functionAt, functions]
    rfl
  · rw [classAt, classes]
    rfl

theorem Steady.setField (steady : m.Steady bindings receivers) (id : InstanceId) (name : String)
    (value : Value) : m.Carries bindings receivers (m.setField id name value) :=
  steady.carries_of_eq rfl rfl rfl

theorem Steady.setCell (steady : m.Steady bindings receivers) (id : FrameId) {slot : Slot}
    (free : ¬receivers slot) (value : Value) :
    m.Carries bindings receivers
      { m with environment := m.environment.setCell id slot value } := by
  refine steady.carries ⟨m.grows_setCell id slot value, fun frame wanted _ receives => ?_⟩ rfl
    (fun _ => .inl rfl) fun _ => .inl rfl
  rw [Environment.get?_frame_setCell, if_neg]
  rintro ⟨-, -, rfl⟩
  exact free receives

theorem Steady.addFunction (steady : m.Steady bindings receivers) {object : FunctionObject}
    (own : object.Steady bindings receivers m.environment) :
    m.Carries bindings receivers (m.addFunction object).2 := by
  refine steady.carries (.of_grows (m.grows_addFunction object) rfl) rfl (fun id => ?_)
    fun _ => .inl rfl
  rw [functionAt_addFunction]
  split
  · exact .inr own
  · exact .inl rfl

theorem Steady.addClass (steady : m.Steady bindings receivers) (object : ClassObject)
    (shares : ∀ name value, object.members.get? name = some value →
      m.Shares bindings receivers object.thisSlot value) :
    m.Carries bindings receivers (m.addClass object).2 := by
  have grows : m.Grows (m.addClass object).2 := Grows.of_eq rfl rfl
  refine steady.carries (.of_grows grows rfl) rfl (fun _ => .inl rfl) fun id => ?_
  rw [classAt_addClass]
  split
  · exact .inr fun name value found => (shares name value found).grow grows
  · exact .inl rfl

theorem spares_push (m : Machine) (cells : Frame) :
    m.Spares receivers { m with environment := m.environment.push cells } := by
  refine ⟨m.grows_push cells, fun frame slot small _ => ?_⟩
  change ((m.environment.push cells).frame frame).get? slot = _
  rw [Environment.frame_push, if_neg (Nat.ne_of_lt small)]

theorem Steady.push (steady : m.Steady bindings receivers) (cells : Frame) :
    m.Carries bindings receivers { m with environment := m.environment.push cells } :=
  steady.carries (m.spares_push cells) rfl (fun _ => .inl rfl) fun _ => .inl rfl

theorem spares_restore (m : Machine) (chain : Chain) :
    m.Spares receivers { m with environment := m.environment.restore chain } :=
  .of_grows (m.grows_restore chain) rfl

theorem Steady.restore (steady : m.Steady bindings receivers)
    (within : m.environment.Within chain) :
    Steady bindings receivers { m with environment := m.environment.restore chain } :=
  ⟨within, fun id => (steady.functions id).spare (m.spares_restore chain), steady.members⟩

end Machine

namespace Environment

/-- The chain of a new frame within a chain. -/
theorem Within.inner {env : Environment} (within : env.Within chain) (cells : Frame) :
    (env.push cells).Within (env.inner chain) := by
  have size : (env.push cells).frames.size = env.frames.size + 1 := Array.size_push _
  intro frame member
  rw [size]
  cases member with
  | head => exact Nat.lt_succ_self _
  | tail _ old => exact Nat.lt_succ_of_lt (within frame old)

/-- A new frame that holds nothing hides no receiver. -/
theorem Gives.inner (gives : m.environment.Gives receivers chain own self)
    (within : m.environment.Within chain) :
    (m.environment.push Table.empty).Gives receivers (m.environment.inner chain) own self := by
  have spared := gives.spare within (m.spares_push Table.empty)
  intro id same
  obtain ⟨slot, isOwn, receives, held⟩ := spared id same
  refine ⟨slot, isOwn, receives, ?_⟩
  have empty : (m.environment.push Table.empty).frame m.environment.frames.size = Table.empty := by
    rw [frame_push, if_pos rfl]
  unfold read?
  change List.findSome? _ (m.environment.frames.size :: chain.frames) = _
  rw [List.findSome?_cons, empty]
  exact held

/-- A frame that is made for a receiver holds it. -/
theorem gives_cell (env : Environment) (chain : Chain) {slot : Slot} (receives : receivers slot)
    (id : InstanceId) :
    (env.push (cell slot (.instance id))).Gives receivers (env.inner chain) (some slot)
      (some id) := by
  intro other same
  cases same
  refine ⟨slot, rfl, receives, ?_⟩
  have made : (env.push (cell slot (.instance id))).frame env.frames.size =
      cell slot (.instance id) := by
    rw [frame_push, if_pos rfl]
  unfold read?
  change List.findSome? _ (env.frames.size :: chain.frames) = _
  rw [List.findSome?_cons, made, cell, Table.get?_insert, if_pos rfl]

end Environment

namespace Machine

theorem Steady.graft (steady : m.Steady bindings receivers) (within : m.environment.Within chain) :
    Steady bindings receivers { m with environment := m.environment.graft chain } ∧
      m.Spares receivers { m with environment := m.environment.graft chain } :=
  have pushed := steady.push Table.empty
  ⟨pushed.steady.restore (within.inner Table.empty),
    pushed.spares.trans (spares_restore _ (m.environment.inner chain))⟩

/-- A method that is bound finds its receiver. -/
theorem Steady.bindFunction (steady : m.Steady bindings receivers) (id : FunctionId)
    (receiver : InstanceId) (slot : Slot)
    (unread : (m.functionAt id).isMethod = true →
      (m.functionAt id).Unread bindings receivers (some slot)) :
    m.Carries bindings receivers (m.bindFunction id receiver slot).2 := by
  have pushed := steady.push (Environment.cell slot (.instance receiver))
  refine pushed.trans (pushed.steady.addFunction ⟨?_, ?_⟩)
  · exact (steady.functions id).within.inner _
  · cases isMethod : (m.functionAt id).isMethod with
    | true =>
        obtain ⟨-, own, same, receives, tidy⟩ := unread isMethod
        cases same
        have self : FunctionObject.self? { m.functionAt id with
            closure := m.environment.inner (m.functionAt id).closure
            receiver := some receiver } = some receiver := if_pos isMethod
        refine ⟨some slot, tidy, ?_⟩
        rw [self]
        exact m.environment.gives_cell (m.functionAt id).closure receives receiver
    | false =>
        obtain ⟨own, tidy, -⟩ := (steady.functions id).code
        have self : FunctionObject.self? { m.functionAt id with
            closure := m.environment.inner (m.functionAt id).closure
            receiver := some receiver } = none := by
          refine if_neg ?_
          change ¬(m.functionAt id).isMethod = true
          rw [isMethod]
          exact Bool.false_ne_true
        refine ⟨own, tidy, ?_⟩
        rw [self]
        exact Environment.gives_none _ _ own

theorem Steady.bindParams : ∀ (parameters : List Param) (values : List Value) {m : Machine},
    m.Steady bindings receivers → Tidy.params bindings receivers parameters →
      m.Carries bindings receivers
        { m with environment := Exec.bindParams bindings m.environment parameters values }
  | [], _, _, steady, _ => .refl steady
  | _ :: _, [], _, steady, _ => .refl steady
  | param :: parameters, value :: values, m, steady, tidy => by
      have parts := List.forall_mem_cons.mp tidy
      unfold Exec.bindParams
      cases bound : bindings.slot? param.id with
      | none => exact Steady.bindParams parameters values steady parts.2
      | some slot =>
          have defined := steady.setCell m.environment.current.frame (parts.1 slot bound) value
          exact defined.trans (Steady.bindParams parameters values defined.steady parts.2)

end Machine
end Lox
