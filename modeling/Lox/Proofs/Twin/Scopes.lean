import Lox.Proofs.Scope.Binding
import Lox.Proofs.Twin.Tokens

set_option autoImplicit false

/-! Resolution of two programs that are alike, side by side: nodes and slots that were given out equally
late correspond. The two places see corresponding declarations under one name; only hidden variables
have names of their own, and no name that can be written means one of them. -/

namespace Lox

open Grammar.Rules (hiddenName)

/-- The nodes from which two readings count, and the slots from which two resolutions do. -/
structure Allotment where
  reading : Reading
  base : Slot
  other : Slot
  plain : ∀ t u, reading.pair t u → t.Plain

namespace Allotment

variable (a : Allotment)

/-- Slots that were given out equally late, among the first `n`. -/
def paired (n : Nat) (slot slot' : Slot) : Prop :=
  ∃ k, k < n ∧ slot = a.base + k ∧ slot' = a.other + k

variable {a}

theorem paired.le {m n : Nat} {slot slot' : Slot} (paired : a.paired m slot slot') (le : m ≤ n) :
    a.paired n slot slot' := by
  obtain ⟨k, less, one, two⟩ := paired
  exact ⟨k, Nat.lt_of_lt_of_le less le, one, two⟩

variable (a)

/-- Trees that are alike and whose hidden variables all have slots. -/
def settled (bindings : Bindings) : Likeness where
  token := a.reading.pair
  named id name other otherName := a.reading.counted id other ∧ a.reading.pair name otherName
  node := a.reading.counted
  hidden id other := a.reading.counted id other ∧ (bindings.slot? id).isSome = true

end Allotment

/-- All nodes that had slots have slots. -/
def Bindings.Kept (bindings after : Bindings) : Prop :=
  ∀ id, (bindings.slot? id).isSome = true → (after.slot? id).isSome = true

/-- Corresponding nodes have corresponding slots, of which `n` have been given out. -/
structure Bindings.Twin (a : Allotment) (n : Nat) (one two : Bindings) : Prop where
  next : one.nextSlot = a.base + n
  otherNext : two.nextSlot = a.other + n
  nodes : ∀ id other, a.reading.counted id other →
    Option.Rel (a.paired n) (one.slot? id) (two.slot? other)

structure Declared.Twin (a : Allotment) (n : Nat) (d e : Declared) : Prop where
  slot : a.paired n d.slot e.slot
  ready : d.ready = e.ready
  name : d.name = e.name ∨ ∃ id other keyword keyword',
    d.name = (hiddenName id keyword).lexeme ∧ e.name = (hiddenName other keyword').lexeme

abbrev Scope.Twin (a : Allotment) (n : Nat) (one two : Scope) : Prop :=
  List.Forall₂ (Declared.Twin a n) one two

structure Place.Twin (a : Allotment) (n : Nat) (one two : Place) : Prop where
  scopes : List.Forall₂ (Scope.Twin a n) one.scopes two.scopes
  role : one.role = two.role
  inClass : one.inClass = two.inClass
  inField : one.inField = two.inField

variable {a : Allotment} {m n : Nat}

theorem Allotment.settled_le {before after : Bindings} (kept : before.Kept after) :
    (a.settled before).Le (a.settled after) where
  token _ _ pair := pair
  named _ _ _ _ both := both
  node _ _ counted := counted
  hidden _ _ both := ⟨both.1, kept _ both.2⟩

theorem Bindings.Kept.trans {first second third : Bindings} (one : first.Kept second)
    (two : second.Kept third) : first.Kept third :=
  fun id known => two id (one id known)

theorem Bindings.kept_bind (bindings : Bindings) (id : NodeId) (slot : Slot) :
    bindings.Kept (bindings.bind id slot) := by
  intro other known
  rw [slot?_bind]
  split
  · rfl
  · exact known

theorem Reading.counted_iff {r : Reading} {id id' other other' : NodeId} (one : r.counted id id')
    (two : r.counted other other') : id = other ↔ id' = other' := by
  obtain ⟨count, rfl, rfl⟩ := one
  obtain ⟨count', rfl, rfl⟩ := two
  exact Nat.add_left_cancel_iff.trans Nat.add_left_cancel_iff.symm

/-- Nodes that two resolutions are to bind have no slots yet. -/
theorem Bindings.Twin.fresh {one two : Bindings} (base : one.nextSlot = a.base)
    (other : two.nextSlot = a.other) (below : one.Below a.reading.first)
    (below' : two.Below a.reading.second) : Bindings.Twin a 0 one two := by
  refine ⟨base, other, fun id other counted => ?_⟩
  obtain ⟨k, rfl, rfl⟩ := counted
  rw [below _ (Nat.le_add_right _ _), below' _ (Nat.le_add_right _ _)]
  exact .none

theorem Bindings.Twin.bind {one two : Bindings} (twin : Bindings.Twin a n one two)
    {id other : NodeId} (counted : a.reading.counted id other) {slot slot' : Slot}
    (slots : a.paired n slot slot') :
    Bindings.Twin a n (one.bind id slot) (two.bind other slot') := by
  refine ⟨twin.next, twin.otherNext, fun wanted wanted' also => ?_⟩
  rw [slot?_bind, slot?_bind]
  by_cases same : id = wanted
  · rw [if_pos same, if_pos ((Reading.counted_iff counted also).mp same)]
    exact .some slots
  · rw [if_neg same, if_neg ((Reading.counted_iff counted also).not.mp same)]
    exact twin.nodes wanted wanted' also

theorem Bindings.Twin.allocate {one two : Bindings} (twin : Bindings.Twin a n one two) :
    Bindings.Twin a (n + 1) one.allocate.2 two.allocate.2 ∧
      a.paired (n + 1) one.allocate.1 two.allocate.1 := by
  refine ⟨⟨?_, ?_, fun id other counted => ?_⟩, n, Nat.lt_succ_self n, twin.next, twin.otherNext⟩
  · exact congrArg (· + 1) twin.next
  · exact congrArg (· + 1) twin.otherNext
  · have before := twin.nodes id other counted
    rw [slot?_allocate, slot?_allocate]
    revert before
    cases one.slot? id <;> cases two.slot? other <;> intro before <;> cases before
    · exact .none
    · next paired => exact .some (paired.le (Nat.le_succ n))

namespace Declared.Twin

variable {d e : Declared}

theorem le (twin : Declared.Twin a m d e) (le : m ≤ n) : Declared.Twin a n d e :=
  ⟨twin.slot.le le, twin.ready, twin.name⟩

/-- A name that can be written means both or none. -/
theorem name_iff (twin : Declared.Twin a n d e) {t u : Token} (pair : a.reading.pair t u) :
    (d.name == t.lexeme) = (e.name == u.lexeme) := by
  have lexeme := (a.reading.same t u pair).2
  rcases twin.name with same | ⟨id, other, keyword, keyword', one, two⟩
  · rw [same, lexeme]
  · have plain := a.plain t u pair
    rw [one, two, ← lexeme, beq_eq_false_iff_ne.mpr (plain id keyword).symm,
      beq_eq_false_iff_ne.mpr (plain other keyword').symm]

end Declared.Twin

namespace Scope.Twin

variable {one two : Scope} {t u : Token}

theorem le (twin : Scope.Twin a m one two) (le : m ≤ n) : Scope.Twin a n one two :=
  List.Forall₂.imp (fun _ _ same => same.le le) twin

theorem find? (twin : Scope.Twin a n one two) (pair : a.reading.pair t u) :
    Option.Rel (Declared.Twin a n) (one.find? (·.name == t.lexeme)) (two.find? (·.name == u.lexeme)) := by
  induction twin with
  | nil => exact .none
  | @cons d e _ _ head _ ih =>
      rw [List.find?_cons, List.find?_cons, head.name_iff pair]
      split
      · exact .some head
      · exact ih

theorem any (twin : Scope.Twin a n one two) (pair : a.reading.pair t u) :
    one.any (·.name == t.lexeme) = two.any (·.name == u.lexeme) := by
  induction twin with
  | nil => rfl
  | cons head _ ih => rw [List.any_cons, List.any_cons, head.name_iff pair, ih]

end Scope.Twin

namespace Place.Twin

variable {one two : Place} {t u : Token}

theorem le (twin : Place.Twin a m one two) (le : m ≤ n) : Place.Twin a n one two :=
  ⟨twin.scopes.imp fun _ _ same => same.le le, twin.role, twin.inClass, twin.inField⟩

theorem find? (twin : Place.Twin a n one two) (pair : a.reading.pair t u) :
    Option.Rel (Declared.Twin a n) (one.find? t.lexeme) (two.find? u.lexeme) := by
  unfold Place.find?
  generalize one.scopes = scopes, two.scopes = scopes', twin.scopes = pairs
  induction pairs with
  | nil => exact .none
  | cons head _ ih =>
      have found := head.find? pair
      rw [List.findSome?_cons, List.findSome?_cons]
      generalize List.find? _ _ = x at found ⊢
      generalize List.find? _ _ = y at found ⊢
      cases found with
      | none => exact ih
      | some same => exact .some same

theorem enter (twin : Place.Twin a n one two) {scope scope' : Scope}
    (scopes : Scope.Twin a n scope scope') : Place.Twin a n (one.enter scope) (two.enter scope') :=
  ⟨.cons scopes twin.scopes, twin.role, twin.inClass, twin.inField⟩

theorem withRole (twin : Place.Twin a n one two) (role : Option FunctionKind) :
    Place.Twin a n { one with role := role } { two with role := role } :=
  ⟨twin.scopes, rfl, twin.inClass, twin.inField⟩

/-- Among the members of a class. -/
theorem inMembers (twin : Place.Twin a n one two) (inField : Bool) :
    Place.Twin a n { one with inClass := true, inField := inField }
      { two with inClass := true, inField := inField } :=
  ⟨twin.scopes, twin.role, rfl, rfl⟩

theorem markReady (twin : Place.Twin a n one two) (pair : a.reading.pair t u) :
    Place.Twin a n (one.markReady t.lexeme) (two.markReady u.lexeme) := by
  obtain ⟨scopes, role, inClass, inField⟩ := one
  obtain ⟨scopes', role', inClass', inField'⟩ := two
  obtain ⟨pairs, roles, classes, fields⟩ := twin
  cases pairs with
  | nil => exact ⟨.nil, roles, classes, fields⟩
  | cons head rest =>
      refine ⟨.cons ?_ rest, roles, classes, fields⟩
      refine List.forall₂_map_left_iff.mpr (List.forall₂_map_right_iff.mpr ?_)
      refine List.Forall₂.imp (fun d e same => ?_) head
      rw [same.name_iff pair]
      split
      · exact ⟨same.slot, rfl, same.name⟩
      · exact same

end Place.Twin
end Lox
