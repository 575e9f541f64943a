import Lox.Proofs.Chronicle.Book

set_option autoImplicit false

/-! Steps of a machine whose chronicle is kept. Each of them leaves a machine about which the chronicle
agrees, with the deed that the step calls for. -/

namespace Lox

variable {known : Site → Prop} {m : Machine} {deeds : List Chronicle.Deed}

namespace Machine

theorem Closed.later {after : Machine} (closed : m.Closed) (further : m.Extends after) :
    (∀ id slot value, (m.environment.frame id).get? slot = some value → after.Knows value) ∧
    (∀ name value, m.environment.globals.get? name = some value → after.Knows value) ∧
    (∀ id name value, (m.classAt id).members.get? name = some value → after.Knows value) ∧
    (∀ id name value, (m.instanceAt id).fields.get? name = some value → after.Knows value) ∧
    ∀ id receiver, (m.functionAt id).receiver = some receiver → after.Knows (.instance receiver) :=
  ⟨fun id slot value found => (closed.cells id slot value found).later further,
    fun name value found => (closed.globals name value found).later further,
    fun id name value found => (closed.members id name value found).later further,
    fun id name value found => (closed.properties id name value found).later further,
    fun id receiver bound => (closed.receivers id receiver bound).later further⟩

/-- Variables, output and the depth of calls are no objects. -/
theorem extends_other (environment : Environment) (output : Sink) (depth : Nat) :
    m.Extends { m with environment := environment, output := output, depth := depth } :=
  ⟨Nat.le_refl _, fun _ _ => rfl, Nat.le_refl _, fun _ _ => rfl, Nat.le_refl _, fun _ _ => rfl⟩

theorem instanceAt_of_size_le {id : InstanceId} (beyond : m.instances.size ≤ id) :
    m.instanceAt id = default := by
  rw [instanceAt, Array.getD_eq_getD_getElem?, Array.getElem?_eq_none beyond]
  rfl

theorem extends_addFunction (f : FunctionObject) : m.Extends (m.addFunction f).2 where
  functions := by
    rw [addFunction, Array.size_push]
    exact Nat.le_succ _
  functionAt id small := by
    rw [functionAt_addFunction, if_neg (Nat.ne_of_lt small)]
  classes := Nat.le_refl _
  classAt _ _ := rfl
  instances := Nat.le_refl _
  owner _ _ := rfl

theorem knows_addFunction (f : FunctionObject) :
    (m.addFunction f).2.Knows (.function (m.addFunction f).1) := by
  change m.functions.size < (m.functions.push f).size
  rw [Array.size_push]
  exact Nat.lt_succ_self _

theorem knows_addClass (object : ClassObject) :
    (m.addClass object).2.Knows (.class (m.addClass object).1) := by
  change m.classes.size < (m.classes.push object).size
  rw [Array.size_push]
  exact Nat.lt_succ_self _

theorem knows_addInstance (owner : ClassId) :
    (m.addInstance owner).2.Knows (.instance (m.addInstance owner).1) := by
  change m.instances.size < (m.instances.push ⟨owner, Table.empty⟩).size
  rw [Array.size_push]
  exact Nat.lt_succ_self _

theorem extends_bindFunction (id : FunctionId) (receiver : InstanceId) (slot : Slot) :
    m.Extends (m.bindFunction id receiver slot).2 :=
  (m.extends_other (m.environment.push (Environment.cell slot (.instance receiver))) m.output m.depth).trans
    (Machine.extends_addFunction _)

theorem extends_addClass (object : ClassObject) : m.Extends (m.addClass object).2 where
  functions := Nat.le_refl _
  functionAt _ _ := rfl
  classes := by
    rw [addClass, Array.size_push]
    exact Nat.le_succ _
  classAt id small := by
    rw [classAt_addClass, if_neg (Nat.ne_of_lt small)]
  instances := Nat.le_refl _
  owner _ _ := rfl

theorem extends_addInstance (owner : ClassId) : m.Extends (m.addInstance owner).2 where
  functions := Nat.le_refl _
  functionAt _ _ := rfl
  classes := Nat.le_refl _
  classAt _ _ := rfl
  instances := by
    rw [addInstance, Array.size_push]
    exact Nat.le_succ _
  owner id small := by
    rw [instanceAt_addInstance, if_neg (Nat.ne_of_lt small)]

theorem owner_setField (id other : InstanceId) (name : String) (value : Value) :
    ((m.setField id name value).instanceAt other).owner = (m.instanceAt other).owner := by
  rw [instanceAt_setField]
  split <;> rfl

theorem size_setField (id : InstanceId) (name : String) (value : Value) :
    (m.setField id name value).instances.size = m.instances.size :=
  Array.size_modify

theorem extends_setField (id : InstanceId) (name : String) (value : Value) :
    m.Extends (m.setField id name value) where
  functions := Nat.le_refl _
  functionAt _ _ := rfl
  classes := Nat.le_refl _
  classAt _ _ := rfl
  instances := Nat.le_of_eq (size_setField id name value).symm
  owner other _ := owner_setField id other name value

end Machine

namespace Chronicle.Book

open Machine (Closed)

/-- What was made before is still there. -/
theorem made_later {after : Machine} (book : Book known m deeds) (further : m.Extends after) :
    ∀ before id decl values slot, .made before id decl values slot ∈ deeds → id < after.classes.size ∧
      decl.Accepted known ∧ decl.memberNames.Nodup ∧ slot.isSome = true ∧
        after.Bears id decl values slot := by
  intro before id decl values slot member
  obtain ⟨small, accepted, distinct, isSome, bears⟩ := book.made before id decl values slot member
  exact ⟨Nat.lt_of_lt_of_le small further.classes, accepted, distinct, isSome, bears.later small further⟩

theorem born_later {after : Machine} (book : Book known m deeds) (further : m.Extends after) :
    ∀ id owner, .born id owner ∈ deeds → id < after.instances.size ∧
      (after.instanceAt id).owner = owner ∧ owner < after.classes.size := by
  intro id owner member
  obtain ⟨small, own, room⟩ := book.born id owner member
  exact ⟨Nat.lt_of_lt_of_le small further.instances, (further.owner id small).trans own,
    Nat.lt_of_lt_of_le room further.classes⟩

/-- Nothing has changed but variables. -/
theorem environment (book : Book known m deeds) {e : Environment}
    (cells : ∀ id slot value, (e.frame id).get? slot = some value → m.Knows value)
    (globals : e.globals = m.environment.globals) : Book known { m with environment := e } deeds where
  closed := { book.closed with
    cells := cells
    globals := globals ▸ book.closed.globals }
  orderly := book.orderly
  classes := book.classes
  made := book.made_later (m.extends_other e m.output m.depth)
  instances := book.instances
  born := book.born
  properties := book.properties
  globals := globals ▸ book.globals

theorem setCell (book : Book known m deeds) {value : Value} (knows : m.Knows value) (id : FrameId)
    (slot : Slot) : Book known { m with environment := m.environment.setCell id slot value } deeds := by
  refine book.environment (fun other wanted found held => ?_) rfl
  rw [Environment.get?_frame_setCell] at held
  split at held
  · cases held
    exact knows
  · exact book.closed.cells other wanted found held

theorem push (book : Book known m deeds) {cells : Frame}
    (own : ∀ slot value, cells.get? slot = some value → m.Knows value) :
    Book known { m with environment := m.environment.push cells } deeds := by
  refine book.environment (fun other wanted found held => ?_) rfl
  rw [Environment.frame_push] at held
  split at held
  · exact own wanted found held
  · exact book.closed.cells other wanted found held

/-- The current chain makes no difference. -/
theorem current (book : Book known m deeds) (chain : Chain) :
    Book known { m with environment := { m.environment with current := chain } } deeds :=
  book.environment book.closed.cells rfl

theorem graft (book : Book known m deeds) (chain : Chain) :
    Book known { m with environment := m.environment.graft chain } deeds := by
  have void : ∀ slot value, (Table.empty : Frame).get? slot = some value → m.Knows value := nofun
  exact (book.push void).current _

theorem classes_cons (book : Book known m deeds) (deed : Deed) (id : ClassId)
    (small : id < m.classes.size) :
    ∃ before decl values slot, .made before id decl values slot ∈ deed :: deeds := by
  obtain ⟨before, decl, values, slot, member⟩ := book.classes id small
  exact ⟨before, decl, values, slot, List.mem_cons_of_mem _ member⟩

theorem instances_cons (book : Book known m deeds) (deed : Deed) (id : InstanceId)
    (small : id < m.instances.size) : .born id (m.instanceAt id).owner ∈ deed :: deeds :=
  List.mem_cons_of_mem _ (book.instances id small)

theorem defineGlobal (book : Book known m deeds) (name : String) {value : Value}
    (knows : m.Knows value) :
    Book known { m with environment := m.environment.defineGlobal name value }
      (.wrote name value :: deeds) where
  closed := { book.closed with
    cells := book.closed.cells
    globals := by
      intro other found held
      rw [Environment.defineGlobal, Table.get?_insert] at held
      split at held
      · cases held
        exact knows
      · exact book.closed.globals other found held }
  orderly := book.orderly
  classes := book.classes_cons _
  made before id decl values slot member :=
    book.made_later (m.extends_other (m.environment.defineGlobal name value) m.output m.depth) before id decl
      values slot ((List.mem_cons.mp member).resolve_left nofun)
  instances := book.instances_cons _
  born id owner member := book.born id owner ((List.mem_cons.mp member).resolve_left nofun)
  properties := book.properties
  globals other := by
    rw [Environment.defineGlobal, Table.get?_insert, book.globals, lastWritten?, lastWritten?,
      List.findSome?_cons, Deed.wrote?]
    by_cases same : name = other
    · rw [if_pos same, if_pos same]
    · rw [if_neg same, if_neg same]

theorem addFunction (book : Book known m deeds) {f : FunctionObject}
    (orderly : Orderly.function (ClassDecl.Accepted known) f.decl)
    (bound : ∀ receiver, f.receiver = some receiver → m.Knows (.instance receiver)) :
    Book known (m.addFunction f).2 deeds where
  closed := by
    obtain ⟨cells, globals, members, properties, receivers⟩ := book.closed.later (m.extends_addFunction f)
    refine ⟨cells, globals, members, properties, fun id receiver isBound => ?_⟩
    rw [Machine.functionAt_addFunction] at isBound
    split at isBound
    · exact bound receiver isBound
    · exact receivers id receiver isBound
  orderly id := by
    rw [Machine.functionAt_addFunction]
    split
    · exact orderly
    · exact book.orderly id
  classes := book.classes
  made := book.made_later (m.extends_addFunction f)
  instances := book.instances
  born := book.born_later (m.extends_addFunction f)
  properties := book.properties
  globals := book.globals

theorem bindFunction (book : Book known m deeds) (id : FunctionId) {receiver : InstanceId}
    (room : receiver < m.instances.size) (slot : Slot) :
    Book known (m.bindFunction id receiver slot).2 deeds := by
  have own : ∀ wanted value, (Environment.cell slot (.instance receiver)).get? wanted = some value →
      m.Knows value := by
    intro wanted value found
    rw [Environment.cell, Table.get?_insert] at found
    split at found
    · cases found
      exact room
    · cases found
  refine (book.push own).addFunction (book.orderly id) fun bound same => ?_
  cases same
  exact room

theorem addClass (book : Book known m deeds) (before : Machine) {object : ClassObject} {decl : ClassDecl}
    {values : Table String Value} {slot : Option Slot}
    (members : ∀ name value, object.members.get? name = some value → m.Knows value)
    (accepted : decl.Accepted known) (distinct : decl.memberNames.Nodup) (isSome : slot.isSome = true)
    (bears : (m.addClass object).2.Bears m.classes.size decl values slot) :
    Book known (m.addClass object).2 (.made before m.classes.size decl values slot :: deeds) where
  closed := by
    have further := m.extends_addClass object
    obtain ⟨cells, globals, older, properties, receivers⟩ := book.closed.later further
    refine ⟨cells, globals, fun id name value found => ?_, properties, receivers⟩
    rw [Machine.classAt_addClass] at found
    split at found
    · exact (members name value found).later further
    · exact older id name value found
  orderly := book.orderly
  classes id small := by
    rw [Machine.addClass, Array.size_push] at small
    by_cases new : id = m.classes.size
    · subst new
      exact ⟨before, decl, values, slot, List.mem_cons_self⟩
    · exact book.classes_cons _ id (Nat.lt_of_le_of_ne (Nat.le_of_lt_succ small) new)
  made earlier id decl values slot member := by
    rcases List.mem_cons.mp member with new | old
    · cases new
      refine ⟨?_, accepted, distinct, isSome, bears⟩
      rw [Machine.addClass, Array.size_push]
      exact Nat.lt_succ_self _
    · exact book.made_later (m.extends_addClass object) earlier id decl values slot old
  instances := book.instances_cons _
  born id owner member :=
    book.born_later (m.extends_addClass object) id owner ((List.mem_cons.mp member).resolve_left nofun)
  properties := book.properties
  globals := book.globals

theorem addInstance (book : Book known m deeds) {owner : ClassId} (room : owner < m.classes.size) :
    Book known (m.addInstance owner).2 (.born m.instances.size owner :: deeds) where
  closed := by
    obtain ⟨cells, globals, members, older, receivers⟩ := book.closed.later (m.extends_addInstance owner)
    refine ⟨cells, globals, members, fun id name value found => ?_, receivers⟩
    rw [Machine.instanceAt_addInstance] at found
    split at found
    · cases found
    · exact older id name value found
  orderly := book.orderly
  classes := book.classes_cons _
  made before id decl values slot member :=
    book.made_later (m.extends_addInstance owner) before id decl values slot
      ((List.mem_cons.mp member).resolve_left nofun)
  instances id small := by
    rw [Machine.addInstance, Array.size_push] at small
    rw [Machine.instanceAt_addInstance]
    by_cases new : id = m.instances.size
    · subst new
      rw [if_pos rfl]
      exact List.mem_cons_self
    · rw [if_neg new]
      exact book.instances_cons _ id (Nat.lt_of_le_of_ne (Nat.le_of_lt_succ small) new)
  born id other member := by
    rcases List.mem_cons.mp member with new | old
    · cases new
      refine ⟨?_, ?_, room⟩
      · rw [Machine.addInstance, Array.size_push]
        exact Nat.lt_succ_self _
      · rw [Machine.instanceAt_addInstance, if_pos rfl]
    · exact book.born_later (m.extends_addInstance owner) id other old
  properties id name := by
    rw [Machine.instanceAt_addInstance]
    split
    next new =>
      -- The new instance has no fields; nothing was set on its number either, which no instance had.
      have none : lastSet? deeds id name = none := by
        rw [← book.properties, new, Machine.instanceAt_of_size_le (Nat.le_refl _)]
        rfl
      exact none.symm
    next => exact book.properties id name
  globals := book.globals

theorem setField (book : Book known m deeds) {id : InstanceId} (name : String) {value : Value}
    (room : id < m.instances.size) (knows : m.Knows value) :
    Book known (m.setField id name value) (.set id name value :: deeds) where
  closed := by
    have further := m.extends_setField id name value
    obtain ⟨cells, globals, members, older, receivers⟩ := book.closed.later further
    refine ⟨cells, globals, members, fun other wanted found held => ?_, receivers⟩
    rw [Machine.instanceAt_setField] at held
    split at held
    · rw [Table.get?_insert] at held
      split at held
      · cases held
        exact knows.later further
      · exact older other wanted found held
    · exact older other wanted found held
  orderly := book.orderly
  classes := book.classes_cons _
  made before other decl values slot member :=
    book.made_later (m.extends_setField id name value) before other decl values slot
      ((List.mem_cons.mp member).resolve_left nofun)
  instances other small := by
    rw [Machine.size_setField] at small
    rw [Machine.owner_setField]
    exact book.instances_cons _ other small
  born other owner member :=
    book.born_later (m.extends_setField id name value) other owner
      ((List.mem_cons.mp member).resolve_left nofun)
  properties other wanted := by
    rw [Machine.instanceAt_setField, lastSet?, List.findSome?_cons, Deed.set?, ← lastSet?,
      ← book.properties]
    by_cases here : id = other
    · subst here
      rw [if_pos ⟨rfl, room⟩, Table.get?_insert]
      by_cases same : name = wanted
      · rw [if_pos same, if_pos ⟨rfl, same⟩]
      · rw [if_neg same, if_neg fun both => same both.2]
    · rw [if_neg fun both => here both.1, if_neg fun both => here both.1]
  globals := book.globals

/-- Something is noted that changes nothing. -/
theorem note (book : Book known m deeds) {deed : Deed}
    (made : ∀ before id decl values slot, deed ≠ .made before id decl values slot)
    (born : ∀ id owner, deed ≠ .born id owner) (set : ∀ id name, deed.set? id name = none)
    (wrote : ∀ name, deed.wrote? name = none) : Book known m (deed :: deeds) :=
  { book with
    classes := book.classes_cons _
    made := fun before id decl values slot member => book.made before id decl values slot
      ((List.mem_cons.mp member).resolve_left (made before id decl values slot).symm)
    instances := book.instances_cons _
    born := fun id owner member =>
      book.born id owner ((List.mem_cons.mp member).resolve_left (born id owner).symm)
    properties := fun id name => by
      rw [lastSet?, List.findSome?_cons, set]
      exact book.properties id name
    globals := fun name => by
      rw [lastWritten?, List.findSome?_cons, wrote]
      exact book.globals name }

/-- What has been written, and how deep calls are nested, makes no difference. -/
theorem accept (book : Book known m deeds) (output : Sink) (depth : Nat) :
    Book known { m with output := output, depth := depth } deeds where
  closed := ⟨book.closed.cells, book.closed.globals, book.closed.members, book.closed.properties,
    book.closed.receivers⟩
  orderly := book.orderly
  classes := book.classes
  made := book.made_later (m.extends_other m.environment output depth)
  instances := book.instances
  born := book.born
  properties := book.properties
  globals := book.globals

end Chronicle.Book
end Lox
