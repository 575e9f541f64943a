import Mathlib.Data.List.Flatten
import Lox.Proofs.Lexical.Run
import Lox.Proofs.Scope.Binding

set_option autoImplicit false

/-! How cells and slots correspond. A world says in which frame and at which slot each cell lives, which
slots a frame may ever hold, and what the functions are that have been made. What is in sight at a place
agrees with the chain of its frames if each name leads to the cell of the declaration that it means, and
the slot of that declaration belongs to one frame of the chain only. -/

namespace Lox

namespace Bindings

/-- The slots of those nodes that have one. -/
def slotsOf (bindings : Bindings) (ids : List NodeId) : List Slot :=
  ids.filterMap bindings.slot?

variable {bindings : Bindings} {ids : List NodeId} {slot : Slot}

theorem mem_slotsOf : slot ∈ bindings.slotsOf ids ↔ ∃ id ∈ ids, bindings.Binds id slot :=
  List.mem_filterMap

theorem slotsOf_append (ids rest : List NodeId) :
    bindings.slotsOf (ids ++ rest) = bindings.slotsOf ids ++ bindings.slotsOf rest :=
  List.filterMap_append

theorem nodup_slotsOf (distinct : (ids.map bindings.slot?).Nodup) : (bindings.slotsOf ids).Nodup := by
  have split : bindings.slotsOf ids = (ids.map bindings.slot?).filterMap id := by
    rw [List.filterMap_map]
    rfl
  rw [split]
  refine distinct.filterMap fun first second slot one two => ?_
  exact one.trans two.symm

end Bindings

namespace Lexical

theorem getElem?_of_prefix {α : Type} {items more : List α} {index : Nat} {item : α}
    (isPrefix : items <+: more) (found : items[index]? = some item) : more[index]? = some item := by
  obtain ⟨rest, rfl⟩ := isPrefix
  rw [List.getElem?_append_left (List.getElem?_eq_some_iff.mp found).1]
  exact found

/-- A function as a machine and a memory have it. -/
structure Entry where
  decl : FunctionDecl
  receiver : Option InstanceId
  chain : Chain
  sight : Sight

def Entry.object (e : Entry) : FunctionObject :=
  ⟨e.decl, e.chain, e.receiver⟩

def Entry.closure (e : Entry) : Closure :=
  ⟨e.decl, e.sight, e.receiver⟩

/-- The frame and the slot of each cell, the slots that belong to each frame, and all functions. -/
structure World where
  places : List (FrameId × Slot)
  homes : List (List Slot)
  entries : List Entry

namespace World

def home (w : World) (frame : FrameId) : List Slot :=
  w.homes.getD frame []

/-- Nothing is taken back. -/
structure Le (w more : World) : Prop where
  places : w.places <+: more.places
  homes : w.homes <+: more.homes
  entries : w.entries <+: more.entries

theorem Le.refl (w : World) : w.Le w :=
  ⟨List.prefix_rfl, List.prefix_rfl, List.prefix_rfl⟩

theorem Le.trans {first second third : World} (one : first.Le second) (two : second.Le third) :
    first.Le third :=
  ⟨one.places.trans two.places, one.homes.trans two.homes, one.entries.trans two.entries⟩

variable {w more : World} {chain : Chain} {slot : Slot} {cell : Cell} {frame : FrameId}

theorem Le.home (le : w.Le more) (small : frame < w.homes.length) :
    more.home frame = w.home frame := by
  obtain ⟨rest, split⟩ := le.homes
  rw [World.home, World.home, ← split, List.getD_eq_getElem?_getD, List.getD_eq_getElem?_getD,
    List.getElem?_append_left small]

def enter (w : World) (home : List Slot) : World :=
  { w with homes := w.homes ++ [home] }

theorem le_enter (w : World) (home : List Slot) : w.Le (w.enter home) :=
  ⟨List.prefix_rfl, List.prefix_append _ _, List.prefix_rfl⟩

theorem home_enter (w : World) (home : List Slot) : (w.enter home).home w.homes.length = home := by
  simp [World.home, enter]

def addCell (w : World) (frame : FrameId) (slot : Slot) : World :=
  { w with places := w.places ++ [(frame, slot)] }

theorem le_addCell (w : World) (frame : FrameId) (slot : Slot) : w.Le (w.addCell frame slot) :=
  ⟨List.prefix_append _ _, List.prefix_rfl, List.prefix_rfl⟩

def addEntry (w : World) (e : Entry) : World :=
  { w with entries := w.entries ++ [e] }

theorem le_addEntry (w : World) (e : Entry) : w.Le (w.addEntry e) :=
  ⟨List.prefix_rfl, List.prefix_rfl, List.prefix_append _ _⟩

/-- A slot that belongs to one frame of a chain only is that of a cell. -/
def Holds (w : World) (chain : Chain) (slot : Slot) (cell : Cell) : Prop :=
  ∃ frame ∈ chain.frames, w.places[cell]? = some (frame, slot) ∧
    ∀ other ∈ chain.frames, slot ∈ w.home other → other = frame

theorem Holds.le (holds : w.Holds chain slot cell) (le : w.Le more)
    (frames : ∀ frame ∈ chain.frames, frame < w.homes.length) : more.Holds chain slot cell := by
  obtain ⟨frame, member, place, only⟩ := holds
  refine ⟨frame, member, getElem?_of_prefix le.places place, fun other inChain belongs => ?_⟩
  rw [le.home (frames other inChain)] at belongs
  exact only other inChain belongs

end World

variable (bindings : Bindings)

/-- What is in sight at a place is what the names there mean. -/
structure Sees (w : World) (path : Path) (chain : Chain) (sight : Sight) : Prop where
  isLocal : sight.isLocal = path.isLocal
  frames : ∀ frame ∈ chain.frames, frame < w.homes.length
  absent : ∀ name, path.declaration? name = none → sight.find? name = none
  present : ∀ name declaration, path.declaration? name = some declaration →
    ∃ slot cell, bindings.Binds declaration slot ∧ sight.find? name = some cell ∧
      w.Holds chain slot cell

/-- Code at a place whose declarations have slots of their own, which no frame of the chain may hold
except for those that are the code's own in the innermost frame. -/
structure Placed (w : World) (path : Path) (chain : Chain) (sight : Sight) (sites : List Site)
    (own : List Slot) : Prop where
  bound : ∀ site ∈ sites, site.Bound bindings
  distinct : (bindings.slotsOf (Sites.slotted sites)).Nodup
  sees : Sees bindings w path chain sight
  apart : ∀ frame ∈ chain.frames, ∀ slot ∈ w.home frame,
    slot ∈ bindings.slotsOf (Sites.slotted sites) → frame = chain.frame ∧ slot ∈ own
  room : ∀ slot ∈ own, slot ∈ w.home chain.frame ∧ (chain.frame, slot) ∉ w.places

/-- A function that can be called. -/
def Entry.Runs (w : World) (e : Entry) : Prop :=
  ∃ path role, Placed bindings w path e.chain e.sight (Sites.function role path e.decl) [] ∧
    Regular.function e.decl ∧ Initialized.function e.decl = []

/-- A method of a class, which can be called as soon as it is bound to an instance. -/
def Entry.LacksReceiver (w : World) (thisSlot : Option Slot) (e : Entry) : Prop :=
  ∃ path role thisId slot, thisSlot = some slot ∧ bindings.Binds thisId slot ∧
    Placed bindings w path e.chain e.sight (⟨.members thisId :: path, .receiver thisId⟩ ::
      Sites.function role (.members thisId :: path) e.decl) [] ∧
    Regular.function e.decl ∧ Initialized.function e.decl = []

namespace World

/-- A value that may be stored and called. -/
def Backs (w : World) (value : Value) : Prop :=
  ∀ id, value = .function id → ∃ e, w.entries[id]? = some e ∧ e.Runs bindings w

/-- A value that may be a member of a class with a given slot for the receiver. -/
def BacksMember (w : World) (thisSlot : Option Slot) (value : Value) : Prop :=
  ∀ id, value = .function id →
    ∃ e, w.entries[id]? = some e ∧ e.LacksReceiver bindings w thisSlot

end World

section

variable {bindings} {w more : World} {path : Path} {chain : Chain} {sight : Sight}
  {sites rest : List Site} {own : List Slot} {value : Value}

theorem Sees.le (sees : Sees bindings w path chain sight) (le : w.Le more) :
    Sees bindings more path chain sight := by
  refine ⟨sees.isLocal, fun frame member => ?_, sees.absent, fun name declaration means => ?_⟩
  · exact Nat.lt_of_lt_of_le (sees.frames frame member) le.homes.length_le
  · obtain ⟨slot, cell, bound, found, holds⟩ := sees.present name declaration means
    exact ⟨slot, cell, bound, found, holds.le le sees.frames⟩

theorem Sees.at_path (sees : Sees bindings w path chain sight) {other : Path}
    (isLocal : other.isLocal = path.isLocal)
    (same : ∀ name, other.declaration? name = path.declaration? name) :
    Sees bindings w other chain sight := by
  refine ⟨sees.isLocal.trans isLocal.symm, sees.frames, fun name means => ?_,
    fun name declaration means => ?_⟩
  · exact sees.absent name ((same name).symm.trans means)
  · exact sees.present name declaration ((same name).symm.trans means)

namespace Placed

theorem le (placed : Placed bindings w path chain sight sites own) (le : w.Le more)
    (fresh : ∀ slot ∈ own, (chain.frame, slot) ∉ more.places) :
    Placed bindings more path chain sight sites own := by
  have small := placed.sees.frames
  refine ⟨placed.bound, placed.distinct, placed.sees.le le, fun frame member slot belongs => ?_,
    fun slot member => ?_⟩
  · rw [le.home (small frame member)] at belongs
    exact placed.apart frame member slot belongs
  · rw [le.home (small chain.frame List.mem_cons_self)]
    exact ⟨(placed.room slot member).1, fresh slot member⟩

theorem le_nil (placed : Placed bindings w path chain sight sites []) (le : w.Le more) :
    Placed bindings more path chain sight sites [] :=
  placed.le le nofun

theorem part (placed : Placed bindings w path chain sight sites own) (part : rest.Sublist sites) :
    Placed bindings w path chain sight rest own := by
  have slots : (bindings.slotsOf (Sites.slotted rest)).Sublist
      (bindings.slotsOf (Sites.slotted sites)) :=
    (part.flatMap Site.slotted).filterMap bindings.slot?
  exact ⟨fun site member => placed.bound site (part.mem member), placed.distinct.sublist slots,
    placed.sees, fun frame member slot belongs inRest =>
      placed.apart frame member slot belongs (slots.mem inRest), placed.room⟩

end Placed

theorem Entry.Runs.le {e : Entry} (runs : e.Runs bindings w) (le : w.Le more) :
    e.Runs bindings more := by
  obtain ⟨path, role, placed, rest⟩ := runs
  exact ⟨path, role, placed.le_nil le, rest⟩

theorem Entry.LacksReceiver.le {e : Entry} {thisSlot : Option Slot}
    (lacks : e.LacksReceiver bindings w thisSlot) (le : w.Le more) :
    e.LacksReceiver bindings more thisSlot := by
  obtain ⟨path, role, thisId, slot, same, bound, placed, rest⟩ := lacks
  exact ⟨path, role, thisId, slot, same, bound, placed.le_nil le, rest⟩

theorem World.Backs.le (backs : w.Backs bindings value) (le : w.Le more) :
    more.Backs bindings value := by
  intro id same
  obtain ⟨e, found, runs⟩ := backs id same
  exact ⟨e, getElem?_of_prefix le.entries found, runs.le le⟩

theorem World.BacksMember.le {thisSlot : Option Slot} (backs : w.BacksMember bindings thisSlot value)
    (le : w.Le more) : more.BacksMember bindings thisSlot value := by
  intro id same
  obtain ⟨e, found, lacks⟩ := backs id same
  exact ⟨e, getElem?_of_prefix le.entries found, lacks.le le⟩

end

end Lexical
end Lox
