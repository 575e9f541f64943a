import Lox.Machine.State

set_option autoImplicit false

/-! What reading sees after writing, for the frames, functions, classes and instances of a machine, and
when a chain of frames holds a slot. -/

namespace Lox

namespace Environment

variable (env : Environment) (id other : FrameId) (slot wanted : Slot) (value : Value)

theorem size_setCell : (env.setCell id slot value).frames.size = env.frames.size := by
  simp only [setCell, Array.size_modify]

theorem frame_setCell :
    (env.setCell id slot value).frame other =
      if id = other ∧ other < env.frames.size then (env.frame other).insert slot value
      else env.frame other := by
  simp only [frame, setCell, Array.getD_eq_getD_getElem?, Array.getElem?_modify]
  by_cases same : id = other
  · subst same
    by_cases room : id < env.frames.size
    · simp [room]
    · simp [room]
  · simp [same]

theorem get?_frame_setCell :
    ((env.setCell id slot value).frame other).get? wanted =
      if id = other ∧ other < env.frames.size ∧ slot = wanted then some value
      else (env.frame other).get? wanted := by
  rw [frame_setCell]
  by_cases here : id = other ∧ other < env.frames.size
  · rw [if_pos here, Table.get?_insert]
    by_cases same : slot = wanted <;> simp [here, same]
  · rw [if_neg here, if_neg fun both => here ⟨both.1, both.2.1⟩]

theorem frame_of_size_le (beyond : env.frames.size ≤ id) : env.frame id = Table.empty := by
  simp only [frame, Array.getD_eq_getD_getElem?, Array.getElem?_eq_none beyond, Option.getD_none]

theorem frame_push (cells : Frame) :
    (env.push cells).frame id = if id = env.frames.size then cells else env.frame id := by
  simp only [frame, push, Array.getD_eq_getD_getElem?, Array.getElem?_push]
  split <;> rfl

theorem frame_push_cell :
    (env.push (cell slot value)).frame id =
      ((env.push Table.empty).setCell env.frames.size slot value).frame id := by
  have size : (env.push Table.empty).frames.size = env.frames.size + 1 := Array.size_push _
  rw [frame_setCell, frame_push, frame_push, size]
  by_cases same : id = env.frames.size
  · rw [if_pos same, if_pos same, if_pos ⟨same.symm, same ▸ Nat.lt_succ_self _⟩]
    rfl
  · rw [if_neg same, if_neg same, if_neg fun both => same both.1.symm]

/-- Some frame of a chain holds a slot. -/
def Holds (chain : Chain) (slot : Slot) : Prop :=
  ∃ id ∈ chain.frames, ((env.frame id).get? slot).isSome = true

variable {env} {chain : Chain} {slot}

theorem find?_eq_some_iff {id : FrameId} :
    env.find? chain slot = some id ↔ ∃ before after, chain.frames = before ++ id :: after ∧
      ((env.frame id).get? slot).isSome = true ∧
      ∀ inner ∈ before, (env.frame inner).get? slot = none := by
  rw [find?, List.find?_eq_some_iff_append]
  constructor
  · rintro ⟨found, before, after, split, others⟩
    refine ⟨before, after, split, found, fun inner member => ?_⟩
    simpa [Table.contains] using others inner member
  · rintro ⟨before, after, split, found, others⟩
    refine ⟨found, before, after, split, fun inner member => ?_⟩
    simpa [Table.contains] using others inner member

theorem find?_isSome_iff : (env.find? chain slot).isSome = true ↔ env.Holds chain slot := by
  rw [find?, List.find?_isSome]
  rfl

theorem read?_of_find? {id : FrameId} (found : env.find? chain slot = some id) :
    env.read? chain slot = (env.frame id).get? slot := by
  obtain ⟨before, after, split, holds, others⟩ := find?_eq_some_iff.mp found
  obtain ⟨value, held⟩ := Option.isSome_iff_exists.mp holds
  rw [read?, split, List.findSome?_append, List.findSome?_cons, held,
    List.findSome?_eq_none_iff.mpr others]
  rfl

theorem read?_of_find?_eq_none (missing : env.find? chain slot = none) :
    env.read? chain slot = none := by
  rw [read?, List.findSome?_eq_none_iff]
  intro id member
  have absent := List.find?_eq_none.mp missing id member
  simpa [Table.contains] using absent

end Environment

namespace Machine

variable (m : Machine)

theorem functionAt_addFunction (object : FunctionObject) (id : FunctionId) :
    (m.addFunction object).2.functionAt id =
      if id = m.functions.size then object else m.functionAt id := by
  simp only [functionAt, addFunction, Array.getD_eq_getD_getElem?, Array.getElem?_push]
  split <;> rfl

theorem functionAt_bindFunction (id : FunctionId) (receiver : InstanceId) (slot : Slot) :
    (m.bindFunction id receiver slot).2.functionAt (m.bindFunction id receiver slot).1 =
      { m.functionAt id with
        closure := m.environment.inner (m.functionAt id).closure
        receiver := some receiver } :=
  (functionAt_addFunction _ _ _).trans (if_pos rfl)

theorem classAt_addClass (object : ClassObject) (id : ClassId) :
    (m.addClass object).2.classAt id =
      if id = m.classes.size then object else m.classAt id := by
  simp only [classAt, addClass, Array.getD_eq_getD_getElem?, Array.getElem?_push]
  split <;> rfl

theorem instanceAt_addInstance (owner : ClassId) (id : InstanceId) :
    (m.addInstance owner).2.instanceAt id =
      if id = m.instances.size then ⟨owner, Table.empty⟩ else m.instanceAt id := by
  simp only [instanceAt, addInstance, Array.getD_eq_getD_getElem?, Array.getElem?_push]
  split <;> rfl

theorem instanceAt_setField (id other : InstanceId) (name : String) (value : Value) :
    (m.setField id name value).instanceAt other =
      if id = other ∧ other < m.instances.size then
        { m.instanceAt other with fields := (m.instanceAt other).fields.insert name value }
      else m.instanceAt other := by
  simp only [instanceAt, setField, Array.getD_eq_getD_getElem?, Array.getElem?_modify]
  by_cases same : id = other
  · subst same
    by_cases room : id < m.instances.size
    · simp [room]
    · simp [room]
  · simp [same]

end Machine
end Lox
