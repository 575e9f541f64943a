import Lox.Proofs.Lexical.World
import Lox.Proofs.Machine.Cells

set_option autoImplicit false

/-! A machine and a memory that correspond. Every slot that a frame holds is one cell, and holds what the
cell holds; objects, global variables and output are the same on both sides, except that a function has
a chain on one side and what is in sight on the other. -/

namespace Lox.Lexical

/-- The frames of a machine hold what the cells of a memory hold. -/
structure Locals (w : World) (env : Environment) (cells : Array Value) : Prop where
  frames : env.frames.size = w.homes.length
  count : cells.size = w.places.length
  holds : ∀ (cell : Nat) frame slot, w.places[cell]? = some (frame, slot) →
    (env.frame frame).get? slot = cells[cell]?
  places : ∀ frame slot, ((env.frame frame).get? slot).isSome = true → (frame, slot) ∈ w.places
  distinct : w.places.Nodup
  homed : ∀ place ∈ w.places, place.2 ∈ w.home place.1

namespace Locals

variable {w : World} {env : Environment} {cells : Array Value} {chain : Chain} {slot : Slot}
  {cell : Cell} {frame : FrameId} {value : Value}

theorem small (locals : Locals w env cells) (member : (frame, slot) ∈ w.places) :
    frame < w.homes.length := by
  have belongs := locals.homed _ member
  by_contra large
  have nothing : w.home frame = [] := by
    rw [World.home, List.getD_eq_getElem?_getD, List.getElem?_eq_none (Nat.not_lt.mp large)]
    rfl
  rw [nothing] at belongs
  cases belongs

theorem find?_of_holds (locals : Locals w env cells) (holds : w.Holds chain slot cell) :
    ∃ frame, env.find? chain slot = some frame ∧ w.places[cell]? = some (frame, slot) := by
  obtain ⟨frame, member, place, only⟩ := holds
  have room : cell < cells.size := by
    rw [locals.count]
    exact (List.getElem?_eq_some_iff.mp place).1
  have held : env.Holds chain slot := by
    refine ⟨frame, member, ?_⟩
    rw [locals.holds cell frame slot place, Array.getElem?_eq_getElem room]
    rfl
  obtain ⟨found, isFound⟩ := Option.isSome_iff_exists.mp (Environment.find?_isSome_iff.mpr held)
  obtain ⟨before, after, split, present, _⟩ := Environment.find?_eq_some_iff.mp isFound
  have inChain : found ∈ chain.frames := by
    rw [split]
    exact List.mem_append_right _ List.mem_cons_self
  have same : found = frame := only found inChain (locals.homed _ (locals.places found slot present))
  rw [same] at isFound
  exact ⟨frame, isFound, place⟩

theorem cellAt {n : Memory} (locals : Locals w env n.cells)
    (place : w.places[cell]? = some (frame, slot)) : n.cells[cell]? = some (n.cellAt cell) := by
  have room : cell < n.cells.size := by
    rw [locals.count]
    exact (List.getElem?_eq_some_iff.mp place).1
  rw [Memory.cellAt, Array.getD_eq_getD_getElem?, Array.getElem?_eq_getElem room]
  rfl

theorem enter (locals : Locals w env cells) (home : List Slot) :
    Locals (w.enter home) (env.push Table.empty) cells := by
  have same (frame : FrameId) : (env.push Table.empty).frame frame = env.frame frame := by
    rw [Environment.frame_push]
    split
    · next here =>
        rw [here]
        exact (env.frame_of_size_le _ (Nat.le_refl _)).symm
    · rfl
  refine ⟨?_, locals.count, fun cell frame slot place => ?_, fun frame slot held => ?_,
    locals.distinct, fun place member => ?_⟩
  · simp [Environment.push, World.enter, locals.frames]
  · rw [same]
    exact locals.holds cell frame slot place
  · rw [same] at held
    exact locals.places frame slot held
  · rw [(w.le_enter home).home (locals.small member)]
    exact locals.homed place member

theorem define (locals : Locals w env cells) (belongs : slot ∈ w.home frame)
    (small : frame < w.homes.length) (new : (frame, slot) ∉ w.places) (value : Value) :
    Locals (w.addCell frame slot) (env.setCell frame slot value) (cells.push value) := by
  have inFrames : frame < env.frames.size := by
    rw [locals.frames]
    exact small
  refine ⟨?_, ?_, fun cell other wanted place => ?_, fun other wanted held => ?_, ?_,
    fun place member => ?_⟩
  · rw [Environment.size_setCell]
    exact locals.frames
  · simp [World.addCell, locals.count]
  · rw [World.addCell, List.getElem?_append] at place
    rw [Environment.get?_frame_setCell, Array.getElem?_push, locals.count]
    split at place
    · next old =>
        have different : ¬ (frame = other ∧ other < env.frames.size ∧ slot = wanted) := by
          rintro ⟨rfl, _, rfl⟩
          exact new (List.mem_of_getElem? place)
        rw [if_neg different, if_neg (Nat.ne_of_lt old)]
        exact locals.holds cell other wanted place
    · next late =>
        obtain ⟨first, same⟩ := List.getElem?_eq_some_iff.mp place
        have isLast : cell = w.places.length := by
          have bound : cell - w.places.length < 1 := first
          omega
        rw [List.getElem_singleton] at same
        cases same
        rw [if_pos ⟨rfl, inFrames, rfl⟩, if_pos isLast]
  · rw [Environment.get?_frame_setCell] at held
    rw [World.addCell]
    split at held
    · next here =>
        obtain ⟨rfl, _, rfl⟩ := here
        exact List.mem_append_right _ List.mem_cons_self
    · exact List.mem_append_left _ (locals.places other wanted held)
  · rw [World.addCell, ← List.concat_eq_append]
    exact locals.distinct.concat new
  · rw [World.addCell] at member
    rcases List.mem_append.mp member with old | last
    · exact locals.homed place old
    · rw [List.mem_singleton.mp last]
      exact belongs

theorem store (locals : Locals w env cells) (place : w.places[cell]? = some (frame, slot))
    (value : Value) :
    Locals w (env.setCell frame slot value) (cells.setIfInBounds cell value) := by
  have inFrames : frame < env.frames.size := by
    rw [locals.frames]
    exact locals.small (List.mem_of_getElem? place)
  have inCells : cell < cells.size := by
    rw [locals.count]
    exact (List.getElem?_eq_some_iff.mp place).1
  refine ⟨?_, ?_, fun other frame' slot' place' => ?_, fun frame' slot' held => ?_,
    locals.distinct, locals.homed⟩
  · rw [Environment.size_setCell]
    exact locals.frames
  · rw [Array.size_setIfInBounds]
    exact locals.count
  · rw [Environment.get?_frame_setCell, Array.getElem?_setIfInBounds]
    by_cases same : cell = other
    · subst same
      cases place.symm.trans place'
      rw [if_pos ⟨rfl, inFrames, rfl⟩, if_pos rfl, if_pos inCells]
    · have different : ¬ (frame = frame' ∧ frame' < env.frames.size ∧ slot = slot') := by
        rintro ⟨rfl, _, rfl⟩
        exact same ((List.getElem?_inj (List.getElem?_eq_some_iff.mp place).1 locals.distinct).mp
          (place.trans place'.symm))
      rw [if_neg different, if_neg same]
      exact locals.holds other frame' slot' place'
  · rw [Environment.get?_frame_setCell] at held
    split at held
    · next here =>
        obtain ⟨rfl, _, rfl⟩ := here
        exact List.mem_of_getElem? place
    · exact locals.places frame' slot' held

theorem congr (locals : Locals w env cells) {other : Environment}
    (size : other.frames.size = env.frames.size)
    (same : ∀ frame, other.frame frame = env.frame frame) : Locals w other cells := by
  refine ⟨size.trans locals.frames, locals.count, fun cell frame slot place => ?_,
    fun frame slot held => ?_, locals.distinct, locals.homed⟩
  · rw [same]
    exact locals.holds cell frame slot place
  · rw [same] at held
    exact locals.places frame slot held

theorem addEntry (locals : Locals w env cells) (e : Entry) : Locals (w.addEntry e) env cells :=
  ⟨locals.frames, locals.count, locals.holds, locals.places, locals.distinct, locals.homed⟩

end Locals

/-- The objects and global variables of a machine are those of a memory, and all values may be used. -/
structure Objects (bindings : Bindings) (w : World) (m : Machine) (n : Memory) : Prop where
  functions : m.functions.toList = w.entries.map Entry.object
  closures : n.functions.toList = w.entries.map Entry.closure
  classes : n.classes.size = m.classes.size
  names : ∀ id, (n.classAt id).name = (m.classAt id).name
  members : ∀ id, (n.classAt id).members = (m.classAt id).members
  instances : n.instances = m.instances
  globals : n.globals = m.environment.globals
  depth : n.depth = m.depth
  output : n.output = m.output
  backsMembers : ∀ id name value, (m.classAt id).members.get? name = some value →
    w.BacksMember bindings (m.classAt id).thisSlot value
  backsGlobals : ∀ name value, m.environment.globals.get? name = some value →
    w.Backs bindings value
  backsFields : ∀ id name value, (m.instanceAt id).fields.get? name = some value →
    w.Backs bindings value

/-- A machine and a memory that differ only in how they find local variables. -/
structure Shared (bindings : Bindings) (w : World) (m : Machine) (n : Memory) : Prop where
  locals : Locals w m.environment n.cells
  objects : Objects bindings w m n
  backsCells : ∀ (cell : Nat) value, n.cells[cell]? = some value → w.Backs bindings value

section

variable {bindings : Bindings} {w : World} {m : Machine} {n : Memory} {value : Value}

namespace Objects

theorem locals (objects : Objects bindings w m n) {more : World} (le : w.Le more)
    (entries : more.entries = w.entries) {env : Environment} (cells : Array Value)
    (globals : env.globals = m.environment.globals) :
    Objects bindings more { m with environment := env } { n with cells := cells } := by
  refine ⟨?_, ?_, objects.classes, objects.names, objects.members, objects.instances,
    objects.globals.trans globals.symm, objects.depth, objects.output,
    fun id name value held => (objects.backsMembers id name value held).le le,
    fun name value held => ?_,
    fun id name value held => (objects.backsFields id name value held).le le⟩
  · rw [entries]
    exact objects.functions
  · rw [entries]
    exact objects.closures
  · change env.globals.get? name = some value at held
    rw [globals] at held
    exact (objects.backsGlobals name value held).le le

end Objects

namespace Shared

variable (shared : Shared bindings w m n)
include shared

theorem functionAt {id : FunctionId} {e : Entry} (found : w.entries[id]? = some e) :
    m.functionAt id = e.object ∧ n.functionAt id = e.closure := by
  rw [Machine.functionAt, Memory.functionAt, Array.getD_eq_getD_getElem?,
    Array.getD_eq_getD_getElem?, ← Array.getElem?_toList, ← Array.getElem?_toList,
    shared.objects.functions, shared.objects.closures, List.getElem?_map, List.getElem?_map, found]
  exact ⟨rfl, rfl⟩

/-- A function is the same on both sides but for what it keeps of its place. -/
theorem decl_functionAt (id : FunctionId) :
    (n.functionAt id).decl = (m.functionAt id).decl := by
  cases found : w.entries[id]? with
  | some e => rw [(shared.functionAt found).1, (shared.functionAt found).2, Entry.object, Entry.closure]
  | none =>
      rw [Machine.functionAt, Memory.functionAt, Array.getD_eq_getD_getElem?,
        Array.getD_eq_getD_getElem?, ← Array.getElem?_toList, ← Array.getElem?_toList,
        shared.objects.functions, shared.objects.closures, List.getElem?_map, List.getElem?_map,
        found]
      rfl

theorem instanceAt (id : InstanceId) : n.instanceAt id = m.instanceAt id := by
  rw [Memory.instanceAt, Machine.instanceAt, shared.objects.instances]

theorem text (value : Value) : n.text value = m.text value := by
  cases value with
  | function id =>
      have decl := shared.decl_functionAt id
      cases named : (m.functionAt id).decl.name <;>
        simp only [Memory.text, Machine.text, Closure.text, FunctionObject.text, decl, named]
  | «class» id => exact shared.objects.names id
  | «instance» id =>
      rw [Memory.text, Machine.text, shared.instanceAt, shared.objects.names]
  | bool value => cases value <;> rfl
  | _ => rfl

theorem withLocals {more : World} (le : w.Le more) (entries : more.entries = w.entries)
    {env : Environment} {cells : Array Value} (globals : env.globals = m.environment.globals)
    (locals : Locals more env cells)
    (backs : ∀ (cell : Nat) value, cells[cell]? = some value → more.Backs bindings value) :
    Shared bindings more { m with environment := env } { n with cells := cells } :=
  ⟨locals, shared.objects.locals le entries cells globals, backs⟩

theorem enter (chain : Chain) (home : List Slot) :
    Shared bindings (w.enter home) { m with environment := m.environment.graft chain } n :=
  shared.withLocals (w.le_enter home) rfl rfl
    ((shared.locals.enter home).congr rfl fun _ => rfl)
    fun cell value held => (shared.backsCells cell value held).le (w.le_enter home)

theorem restore (chain : Chain) :
    Shared bindings w { m with environment := m.environment.restore chain } n :=
  shared.withLocals (World.Le.refl w) rfl rfl (shared.locals.congr rfl fun _ => rfl)
    shared.backsCells

theorem define {frame : FrameId} {slot : Slot} (belongs : slot ∈ w.home frame)
    (small : frame < w.homes.length) (new : (frame, slot) ∉ w.places)
    (backs : (w.addCell frame slot).Backs bindings value) :
    Shared bindings (w.addCell frame slot)
      { m with environment := m.environment.setCell frame slot value } (n.addCell value).2 := by
  have le := w.le_addCell frame slot
  refine shared.withLocals le rfl rfl (shared.locals.define belongs small new value)
    fun cell other held => ?_
  rw [Array.getElem?_push] at held
  split at held
  · cases held
    exact backs
  · exact (shared.backsCells cell other held).le le

/-- A frame is added that holds one new cell. -/
theorem push {slot : Slot}
    (backs : ((w.enter [slot]).addCell w.homes.length slot).Backs bindings value) :
    Shared bindings ((w.enter [slot]).addCell w.homes.length slot)
      { m with environment := m.environment.push (Environment.cell slot value) }
      (n.addCell value).2 := by
  have locals := shared.locals
  have le : w.Le ((w.enter [slot]).addCell w.homes.length slot) :=
    (w.le_enter [slot]).trans ((w.enter [slot]).le_addCell _ _)
  have belongs : slot ∈ (w.enter [slot]).home w.homes.length := by
    rw [World.home_enter]
    exact List.mem_cons_self
  have new : (w.homes.length, slot) ∉ (w.enter [slot]).places :=
    fun place => Nat.lt_irrefl _ (locals.small place)
  have defined := (locals.enter [slot]).define belongs (by simp [World.enter]) new value
  refine shared.withLocals le rfl rfl (defined.congr ?_ fun frame => ?_) fun cell other held => ?_
  · rw [Environment.size_setCell]
    simp [Environment.push]
  · rw [Environment.frame_push_cell, locals.frames]
  · rw [Array.getElem?_push] at held
    split at held
    · cases held
      exact backs
    · exact (shared.backsCells cell other held).le le

theorem store {cell : Cell} {frame : FrameId} {slot : Slot}
    (place : w.places[cell]? = some (frame, slot)) (backs : w.Backs bindings value) :
    Shared bindings w { m with environment := m.environment.setCell frame slot value }
      (n.setCell cell value) := by
  refine shared.withLocals (World.Le.refl w) rfl rfl (shared.locals.store place value)
    fun other old held => ?_
  rw [Array.getElem?_setIfInBounds] at held
  split at held
  · split at held
    · cases held
      exact backs
    · cases held
  · exact shared.backsCells other old held

theorem defineGlobal (name : String) (backs : w.Backs bindings value) :
    Shared bindings w { m with environment := m.environment.defineGlobal name value }
      (n.defineGlobal name value) := by
  refine ⟨shared.locals.congr rfl fun _ => rfl, { shared.objects with
    globals := congrArg (·.insert name value) shared.objects.globals
    backsGlobals := fun other held found => ?_ }, shared.backsCells⟩
  change (m.environment.globals.insert name value).get? other = some held at found
  rw [Table.get?_insert] at found
  split at found
  · cases found
    exact backs
  · exact shared.objects.backsGlobals other held found

theorem accept (output : Sink) :
    Shared bindings w { m with output := output } { n with output := output } :=
  ⟨shared.locals, { shared.objects with output := rfl }, shared.backsCells⟩

theorem atDepth (depth : Nat) :
    Shared bindings w { m with depth := depth } { n with depth := depth } :=
  ⟨shared.locals, { shared.objects with depth := rfl }, shared.backsCells⟩

theorem addFunction (e : Entry) :
    Shared bindings (w.addEntry e) (m.addFunction e.object).2 (n.addFunction e.closure).2 := by
  have le := w.le_addEntry e
  have objects := shared.objects
  refine ⟨shared.locals.addEntry e, { objects with
    functions := ?_
    closures := ?_
    backsMembers := ?_
    backsGlobals := ?_
    backsFields := ?_ }, fun cell value held => (shared.backsCells cell value held).le le⟩
  · simp [Machine.addFunction, World.addEntry, objects.functions]
  · simp [Memory.addFunction, World.addEntry, objects.closures]
  · exact fun id name value held => (objects.backsMembers id name value held).le le
  · exact fun name value held => (objects.backsGlobals name value held).le le
  · exact fun id name value held => (objects.backsFields id name value held).le le

theorem addFunction_id (e : Entry) :
    (m.addFunction e.object).1 = w.entries.length ∧
      (n.addFunction e.closure).1 = w.entries.length := by
  constructor
  · have same := congrArg List.length shared.objects.functions
    simpa [Machine.addFunction] using same
  · have same := congrArg List.length shared.objects.closures
    simpa [Memory.addFunction] using same

theorem addClass (name : String) (members : Table String Value) (thisSlot : Option Slot)
    (backs : ∀ wanted value, members.get? wanted = some value →
      w.BacksMember bindings thisSlot value) :
    Shared bindings w (m.addClass ⟨name, members, thisSlot⟩).2 (n.addClass ⟨name, members⟩).2 := by
  have objects := shared.objects
  have classAt (id : ClassId) : (n.addClass ⟨name, members⟩).2.classAt id =
      if id = m.classes.size then ⟨name, members⟩ else n.classAt id := by
    simp only [Memory.classAt, Memory.addClass, Array.getD_eq_getD_getElem?, Array.getElem?_push,
      objects.classes]
    split <;> rfl
  refine ⟨shared.locals, { objects with
    classes := ?_
    names := ?_
    members := ?_
    backsMembers := ?_ }, shared.backsCells⟩
  · simp [Machine.addClass, Memory.addClass, objects.classes]
  · intro id
    rw [classAt, Machine.classAt_addClass]
    split
    · rfl
    · exact objects.names id
  · intro id
    rw [classAt, Machine.classAt_addClass]
    split
    · rfl
    · exact objects.members id
  · intro id wanted value held
    rw [Machine.classAt_addClass] at held ⊢
    split at held
    · next same =>
        rw [if_pos same]
        exact backs wanted value held
    · next other =>
        rw [if_neg other]
        exact objects.backsMembers id wanted value held

theorem addInstance (owner : ClassId) :
    Shared bindings w (m.addInstance owner).2 (n.addInstance owner).2 := by
  have objects := shared.objects
  refine ⟨shared.locals, { objects with
    instances := ?_
    backsFields := ?_ }, shared.backsCells⟩
  · simp [Machine.addInstance, Memory.addInstance, objects.instances]
  · intro id name value held
    rw [Machine.instanceAt_addInstance] at held
    split at held
    · cases held
    · exact objects.backsFields id name value held

theorem setField (id : InstanceId) (name : String) (backs : w.Backs bindings value) :
    Shared bindings w (m.setField id name value) (n.setField id name value) := by
  have objects := shared.objects
  refine ⟨shared.locals, { objects with
    instances := ?_
    backsFields := ?_ }, shared.backsCells⟩
  · simp [Machine.setField, Memory.setField, objects.instances]
  · intro other wanted held found
    rw [Machine.instanceAt_setField] at found
    split at found
    · change ((m.instanceAt other).fields.insert name value).get? wanted = some held at found
      rw [Table.get?_insert] at found
      split at found
      · cases found
        exact backs
      · exact objects.backsFields other wanted held found
    · exact objects.backsFields other wanted held found

end Shared

end
end Lox.Lexical
