import Lox.Proofs.Machine.Cells

set_option autoImplicit false

/-! Environments that hold the same variables, though not in the same frames. Some frames of one belong to
frames of the other and hold the same; further ones, on either side, are void: they hold nothing, and code
that passes them on its way outwards finds what it would find without them. -/

namespace Lox

/-- What is known of the frames of two environments: which belong together, and which are void. -/
structure Pairing where
  both : FrameId → FrameId → Prop
  left : FrameId → Prop
  right : FrameId → Prop

namespace Pairing

variable {p q r : Pairing} {i j : FrameId}

/-- All that was known is still known. -/
structure Grows (p q : Pairing) : Prop where
  both : ∀ {i j}, p.both i j → q.both i j
  left : ∀ {i}, p.left i → q.left i
  right : ∀ {j}, p.right j → q.right j

theorem Grows.refl (p : Pairing) : p.Grows p :=
  ⟨id, id, id⟩

theorem Grows.trans (one : p.Grows q) (two : q.Grows r) : p.Grows r :=
  ⟨two.both ∘ one.both, two.left ∘ one.left, two.right ∘ one.right⟩

def addBoth (p : Pairing) (i j : FrameId) : Pairing :=
  { p with both := fun k l => p.both k l ∨ k = i ∧ l = j }

def addLeft (p : Pairing) (i : FrameId) : Pairing :=
  { p with left := fun k => p.left k ∨ k = i }

def addRight (p : Pairing) (j : FrameId) : Pairing :=
  { p with right := fun l => p.right l ∨ l = j }

theorem grows_addBoth (p : Pairing) (i j : FrameId) : p.Grows (p.addBoth i j) :=
  ⟨.inl, id, id⟩

theorem grows_addLeft (p : Pairing) (i : FrameId) : p.Grows (p.addLeft i) :=
  ⟨id, .inl, id⟩

theorem grows_addRight (p : Pairing) (j : FrameId) : p.Grows (p.addRight j) :=
  ⟨id, id, .inl⟩

/-- Two rows of frames that are the same but for void ones. -/
inductive Aligned (p : Pairing) : List FrameId → List FrameId → Prop
  | nil : Aligned p [] []
  | both {i j : FrameId} {one two : List FrameId} (pair : p.both i j) (rest : Aligned p one two) :
      Aligned p (i :: one) (j :: two)
  | left {i : FrameId} {one two : List FrameId} (void : p.left i) (rest : Aligned p one two) :
      Aligned p (i :: one) two
  | right {j : FrameId} {one two : List FrameId} (void : p.right j) (rest : Aligned p one two) :
      Aligned p one (j :: two)

theorem Aligned.grow {one two : List FrameId} (aligned : p.Aligned one two) (grows : p.Grows q) :
    q.Aligned one two := by
  induction aligned with
  | nil => exact .nil
  | both pair _ ih => exact .both (grows.both pair) ih
  | left void _ ih => exact .left (grows.left void) ih
  | right void _ ih => exact .right (grows.right void) ih

/-- What a pairing says is true of two environments. -/
structure Fits (p : Pairing) (e f : Environment) : Prop where
  once : ∀ {i j k l : Nat}, p.both i j → p.both k l → (i = k ↔ j = l)
  apart : ∀ {i j}, p.both i j → ¬p.left i ∧ ¬p.right j
  roomBoth : ∀ {i j : Nat}, p.both i j → i < e.frames.size ∧ j < f.frames.size
  roomLeft : ∀ {i : Nat}, p.left i → i < e.frames.size
  roomRight : ∀ {j : Nat}, p.right j → j < f.frames.size
  cells : ∀ {i j}, p.both i j → f.frame j = e.frame i
  voidLeft : ∀ {i}, p.left i → e.frame i = Table.empty
  voidRight : ∀ {j}, p.right j → f.frame j = Table.empty

namespace Fits

variable {e f : Environment} {c d : Chain}

/-- Nothing but frames is looked at. -/
theorem of_frames {e' f' : Environment} (fits : p.Fits e f) (one : e'.frames = e.frames)
    (two : f'.frames = f.frames) : p.Fits e' f' := by
  have here (i : FrameId) : e'.frame i = e.frame i := by rw [Environment.frame, one]; rfl
  have there (j : FrameId) : f'.frame j = f.frame j := by rw [Environment.frame, two]; rfl
  refine ⟨fits.once, fits.apart, ?_, ?_, ?_, ?_, ?_, ?_⟩
  · rw [one, two]
    exact fits.roomBoth
  · rw [one]
    exact fits.roomLeft
  · rw [two]
    exact fits.roomRight
  · intro i j pair
    rw [here, there, fits.cells pair]
  · intro i void
    rw [here, fits.voidLeft void]
  · intro j void
    rw [there, fits.voidRight void]

theorem read? (fits : p.Fits e f) (aligned : p.Aligned c.frames d.frames) (slot : Slot) :
    f.read? d slot = e.read? c slot := by
  unfold Environment.read?
  generalize c.frames = one at aligned
  generalize d.frames = two at aligned
  induction aligned with
  | nil => rfl
  | both pair _ ih => simp only [List.findSome?_cons, fits.cells pair, ih]
  | left void _ ih => simp only [List.findSome?_cons, fits.voidLeft void, Table.get?_empty, ih]
  | right void _ ih => simp only [List.findSome?_cons, fits.voidRight void, Table.get?_empty, ih]

theorem find? (fits : p.Fits e f) (aligned : p.Aligned c.frames d.frames) (slot : Slot) :
    Option.Rel p.both (e.find? c slot) (f.find? d slot) := by
  have contains_empty : (Table.empty : Frame).contains slot = false := rfl
  unfold Environment.find?
  generalize c.frames = one at aligned
  generalize d.frames = two at aligned
  induction aligned with
  | nil => exact .none
  | @both i j _ _ pair _ ih =>
    simp only [List.find?_cons, fits.cells pair]
    split
    · exact .some pair
    · exact ih
  | left void _ ih =>
    simp only [List.find?_cons, fits.voidLeft void, contains_empty]
    exact ih
  | right void _ ih =>
    simp only [List.find?_cons, fits.voidRight void, contains_empty]
    exact ih

/-- Frames that belong together are written together. -/
theorem setCell (fits : p.Fits e f) (pair : p.both i j) (slot : Slot) (value : Value) :
    p.Fits (e.setCell i slot value) (f.setCell j slot value) := by
  refine ⟨fits.once, fits.apart, ?_, ?_, ?_, ?_, ?_, ?_⟩
  · intro k l other
    rw [Environment.size_setCell, Environment.size_setCell]
    exact fits.roomBoth other
  · intro k void
    rw [Environment.size_setCell]
    exact fits.roomLeft void
  · intro l void
    rw [Environment.size_setCell]
    exact fits.roomRight void
  · intro k l other
    have room := fits.roomBoth other
    have same := fits.once pair other
    rw [Environment.frame_setCell, Environment.frame_setCell, fits.cells other]
    by_cases here : i = k
    · rw [if_pos ⟨same.mp here, room.2⟩, if_pos ⟨here, room.1⟩]
    · rw [if_neg fun written => here (same.mpr written.1), if_neg fun written => here written.1]
  · intro k void
    rw [Environment.frame_setCell, if_neg, fits.voidLeft void]
    rintro ⟨rfl, -⟩
    exact (fits.apart pair).1 void
  · intro l void
    rw [Environment.frame_setCell, if_neg, fits.voidRight void]
    rintro ⟨rfl, -⟩
    exact (fits.apart pair).2 void

/-- A frame that exists is not the next new one. -/
theorem frame_push_of_lt {env : Environment} {k : FrameId} (cells : Frame)
    (old : k < env.frames.size) : (env.push cells).frame k = env.frame k := by
  rw [Environment.frame_push, if_neg (Nat.ne_of_lt old)]

theorem frame_push_new (env : Environment) (cells : Frame) :
    (env.push cells).frame env.frames.size = cells := by
  rw [Environment.frame_push, if_pos rfl]

theorem size_push (env : Environment) (cells : Frame) :
    (env.push cells).frames.size = env.frames.size + 1 := by
  rw [Environment.push, Array.size_push]

theorem pushBoth (fits : p.Fits e f) (cells : Frame) :
    (p.addBoth e.frames.size f.frames.size).Fits (e.push cells) (f.push cells) := by
  constructor
  · rintro i j k l (one | ⟨rfl, rfl⟩) (two | ⟨rfl, rfl⟩)
    · exact fits.once one two
    · have room := fits.roomBoth one
      omega
    · have room := fits.roomBoth two
      omega
    · simp
  · rintro i j (pair | ⟨rfl, rfl⟩)
    · exact fits.apart pair
    · exact ⟨fun void => Nat.lt_irrefl _ (fits.roomLeft void),
        fun void => Nat.lt_irrefl _ (fits.roomRight void)⟩
  · simp only [size_push]
    rintro i j (pair | ⟨rfl, rfl⟩)
    · have room := fits.roomBoth pair
      omega
    · omega
  · intro i void
    have room := fits.roomLeft void
    rw [size_push]
    omega
  · intro j void
    have room := fits.roomRight void
    rw [size_push]
    omega
  · rintro i j (pair | ⟨rfl, rfl⟩)
    · have room := fits.roomBoth pair
      rw [frame_push_of_lt cells room.1, frame_push_of_lt cells room.2, fits.cells pair]
    · rw [frame_push_new, frame_push_new]
  · intro i void
    rw [frame_push_of_lt cells (fits.roomLeft void), fits.voidLeft void]
  · intro j void
    rw [frame_push_of_lt cells (fits.roomRight void), fits.voidRight void]

theorem pushLeft (fits : p.Fits e f) : (p.addLeft e.frames.size).Fits (e.push Table.empty) f := by
  refine ⟨fits.once, ?_, ?_, ?_, fits.roomRight, ?_, ?_, fits.voidRight⟩
  · intro i j pair
    have room := fits.roomBoth pair
    refine ⟨?_, (fits.apart pair).2⟩
    rintro (void | rfl)
    · exact (fits.apart pair).1 void
    · omega
  · intro i j pair
    have room := fits.roomBoth pair
    rw [size_push]
    omega
  · simp only [size_push]
    rintro i (void | rfl)
    · have room := fits.roomLeft void
      omega
    · omega
  · intro i j pair
    rw [frame_push_of_lt _ (fits.roomBoth pair).1, fits.cells pair]
  · rintro i (void | rfl)
    · rw [frame_push_of_lt _ (fits.roomLeft void), fits.voidLeft void]
    · rw [frame_push_new]

/-- A pairing, seen from the other side. -/
theorem flip (fits : p.Fits e f) : Fits ⟨fun j i => p.both i j, p.right, p.left⟩ f e where
  once one two := (fits.once one two).symm
  apart pair := (fits.apart pair).symm
  roomBoth pair := (fits.roomBoth pair).symm
  roomLeft := fits.roomRight
  roomRight := fits.roomLeft
  cells pair := (fits.cells pair).symm
  voidLeft := fits.voidRight
  voidRight := fits.voidLeft

theorem pushRight (fits : p.Fits e f) : (p.addRight f.frames.size).Fits e (f.push Table.empty) :=
  fits.flip.pushLeft.flip

end Fits
end Pairing
end Lox
