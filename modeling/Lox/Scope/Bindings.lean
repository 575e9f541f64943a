import Lox.Syntax.Basic
import Std.Data.TreeMap

set_option autoImplicit false

/-! Slots and bindings. Each local declaration has a slot of its own, and a table says which slot a
node stands for; nodes without an entry are global. Slots are counted up and never given back. -/

namespace Lox

/-- The number of a local declaration. -/
abbrev Slot := Nat

structure Bindings where
  slots : Std.TreeMap NodeId Slot
  nextSlot : Slot

namespace Bindings

def empty : Bindings := ⟨∅, 0⟩

instance : Inhabited Bindings := ⟨empty⟩

def slot? (bindings : Bindings) (node : NodeId) : Option Slot :=
  bindings.slots[node]?

def allocate (bindings : Bindings) : Slot × Bindings :=
  (bindings.nextSlot, { bindings with nextSlot := bindings.nextSlot + 1 })

def bind (bindings : Bindings) (node : NodeId) (slot : Slot) : Bindings :=
  { bindings with slots := bindings.slots.insert node slot }

/-- Drops the entries of all nodes from `first` on. -/
def forgetFrom (bindings : Bindings) (first : NodeId) : Bindings :=
  { bindings with slots := bindings.slots.filter fun node _ => node < first }

def size (bindings : Bindings) : Nat :=
  bindings.slots.size

def toList (bindings : Bindings) : List (NodeId × Slot) :=
  bindings.slots.toList

@[simp]
theorem slot?_empty (node : NodeId) : empty.slot? node = none := by
  simp [slot?, empty]

@[simp]
theorem slot?_allocate (bindings : Bindings) (node : NodeId) :
    bindings.allocate.2.slot? node = bindings.slot? node := rfl

theorem slot?_bind (bindings : Bindings) (node other : NodeId) (slot : Slot) :
    (bindings.bind node slot).slot? other =
      if node = other then some slot else bindings.slot? other := by
  simp [slot?, bind, Std.TreeMap.getElem?_insert]

theorem slot?_forgetFrom (bindings : Bindings) (first node : NodeId) :
    (bindings.forgetFrom first).slot? node =
      if node < first then bindings.slot? node else none := by
  simp only [slot?, forgetFrom, Std.TreeMap.getElem?_filter, Std.TreeMap.getKey_eq,
    Option.pfilter_eq_filter]
  cases bindings.slots[node]? <;> simp [Option.filter]

end Bindings
end Lox
