import Lox.Proofs.Machine.Cells
import Mathlib.Logic.Function.Basic

set_option autoImplicit false

/-! Frames are shared cells. Every frame but the outermost stands within one that is older, so that a search
outwards ends; a handle reads a slot in the first frame that holds it; and a write is seen through exactly the
handles that come to the written frame first, whatever was done with the handles before. -/

namespace Lox.Environment

/-! ### Operations and the handles that they give out -/

/-- What is done with frames. A chain is a handle that was given out before. -/
inductive Operation where
  | define (slot : Slot) (value : Value)
  | get (slot : Slot)
  | assign (slot : Slot) (value : Value)
  | enter
  | restore (chain : Chain)
  | capture
  | graft (chain : Chain)
  | extend (chain : Chain) (slot : Slot) (value : Value)
  | reset

namespace Operation

/-- The handle that an operation is given. -/
def given? : Operation → Option Chain
  | restore chain | graft chain | extend chain _ _ => some chain
  | _ => none

/-- The slot that an operation writes to. -/
def written? : Operation → Option Slot
  | define slot _ | assign slot _ => some slot
  | _ => none

/-- An assignment to a slot that no frame holds fails and leaves everything as it is. -/
def after (env : Environment) : Operation → Environment
  | define slot value => env.define slot value
  | get _ | capture => env
  | assign slot value => (env.assign? slot value).getD env
  | enter => env.enter
  | restore chain => env.restore chain
  | graft chain => env.graft chain
  | extend chain slot value => (env.extend chain slot value).2
  | reset => env.reset

def handedOut (env : Environment) : Operation → List Chain
  | capture | enter | graft _ => [env.current]
  | extend chain slot value => [(env.extend chain slot value).1]
  | _ => []

/-- The chain that a new frame is put on. -/
def ground? (env : Environment) : Operation → Option Chain
  | enter => some env.current
  | graft chain | extend chain _ _ => some chain
  | _ => none

end Operation

/-- For each frame the frame that it stands within. -/
abbrev Links := FrameId → Option FrameId

/-- A new frame stands within the innermost frame of the chain that it is put on. -/
def Links.after (links : Links) (env : Environment) (op : Operation) : Links :=
  match op.ground? env with
  | some ground => Function.update links env.frames.size (some ground.frame)
  | none => links

/-- Environments that are reached by operations, with the handles that were given out and the links that
the frames were given when they were made. -/
inductive Reached : Environment → List Chain → Links → Prop
  | new : Reached Environment.new [] fun _ => none
  | step {env : Environment} {handles : List Chain} {links : Links} (op : Operation)
      (before : Reached env handles links) (given : ∀ chain, op.given? = some chain → chain ∈ handles) :
      Reached (op.after env) (op.handedOut env ++ handles) (links.after env op)

/-- A handle that was given out, or one of the two that an environment keeps. -/
def Known (env : Environment) (handles : List Chain) (chain : Chain) : Prop :=
  chain = env.current ∨ chain = env.root ∨ chain ∈ handles

/-! ### Searching outwards -/

section

variable (links : Links)

/-- A frame, the frame it stands within, and so on up to the outermost. -/
inductive Walk : List FrameId → Prop
  | outermost {id : FrameId} (last : links id = none) : Walk [id]
  | within {id outer : FrameId} {rest : List FrameId} (link : links id = some outer)
      (walk : Walk (outer :: rest)) : Walk (id :: outer :: rest)

/-- The search for a slot from a frame outwards, and the frame that it ends in. -/
inductive Searches (env : Environment) (slot : Slot) : FrameId → Option FrameId → Prop
  | here {id : FrameId} (holds : ((env.frame id).get? slot).isSome = true) :
      Searches env slot id (some id)
  | outward {id outer : FrameId} {found : Option FrameId} (lacks : (env.frame id).get? slot = none)
      (link : links id = some outer) (rest : Searches env slot outer found) :
      Searches env slot id found
  | nowhere {id : FrameId} (lacks : (env.frame id).get? slot = none) (last : links id = none) :
      Searches env slot id none

end

/-- A chain comes to a frame without meeting a slot before. -/
def ComesTo (env : Environment) (slot : Slot) (chain : Chain) (id : FrameId) : Prop :=
  ∃ nearer farther, chain.frames = nearer ++ id :: farther ∧
    ∀ other ∈ nearer, (env.frame other).get? slot = none

variable {links : Links} {env : Environment} {slot : Slot}

theorem Searches.unique {id : FrameId} {found other : Option FrameId}
    (first : Searches links env slot id found) (second : Searches links env slot id other) :
    found = other := by
  induction first with
  | here holds =>
    cases second with
    | here => rfl
    | outward lacks | nowhere lacks =>
      rw [lacks] at holds
      cases holds
  | outward lacks link _ ih =>
    cases second with
    | here holds =>
      rw [lacks] at holds
      cases holds
    | outward _ same rest =>
      rw [link] at same
      cases same
      exact ih rest
    | nowhere _ last =>
      rw [link] at last
      cases last
  | nowhere lacks last =>
    cases second with
    | here holds =>
      rw [lacks] at holds
      cases holds
    | outward _ link =>
      rw [last] at link
      cases link
    | nowhere => rfl

theorem Walk.searches {frames : List FrameId} (walk : Walk links frames) :
    ∀ first ∈ frames.head?,
      Searches links env slot first (frames.find? fun id => (env.frame id).contains slot) := by
  induction walk with
  | @outermost id last =>
    rintro _ ⟨⟩
    cases held : (env.frame id).get? slot with
    | none =>
      simp only [List.find?_cons, Table.contains, held, Option.isSome_none]
      exact .nowhere held last
    | some value =>
      simp only [List.find?_cons, Table.contains, held, Option.isSome_some]
      exact .here (held ▸ rfl)
  | @within id outer rest link walk ih =>
    rintro _ ⟨⟩
    cases held : (env.frame id).get? slot with
    | none =>
      simp only [List.find?_cons (a := id), Table.contains, held, Option.isSome_none]
      exact .outward held link (ih outer rfl)
    | some value =>
      simp only [List.find?_cons (a := id), Table.contains, held, Option.isSome_some]
      exact .here (held ▸ rfl)

/-! ### Writing to one frame -/

theorem read?_setCell_of_ne {id : FrameId} {wanted : Slot} (value : Value) (different : slot ≠ wanted)
    (chain : Chain) : (env.setCell id slot value).read? chain wanted = env.read? chain wanted := by
  unfold read?
  congr 1
  funext other
  rw [get?_frame_setCell, if_neg fun all => different all.2.2]

/-- A write is seen through the chains that come to the written frame first. -/
theorem read?_setCell_of_comesTo {id : FrameId} {chain : Chain} (value : Value)
    (room : id < env.frames.size) (comes : env.ComesTo slot chain id) :
    (env.setCell id slot value).read? chain slot = some value := by
  obtain ⟨nearer, farther, split, lack⟩ := comes
  unfold read?
  rw [split]
  clear split
  induction nearer with
  | nil =>
    rw [List.nil_append, List.findSome?_cons, get?_frame_setCell, if_pos ⟨rfl, room, rfl⟩]
  | cons other nearer ih =>
    rw [List.cons_append, List.findSome?_cons, get?_frame_setCell]
    by_cases same : id = other
    · rw [if_pos ⟨same, same ▸ room, rfl⟩]
    · rw [if_neg fun all => same all.1, lack other List.mem_cons_self]
      exact ih fun inner member => lack inner (List.mem_cons_of_mem _ member)

/-- It is not seen through any other. -/
theorem read?_setCell_of_not_comesTo {id : FrameId} {chain : Chain} (value : Value)
    (apart : ¬env.ComesTo slot chain id) :
    (env.setCell id slot value).read? chain slot = env.read? chain slot := by
  unfold ComesTo at apart
  unfold read?
  generalize chain.frames = frames at apart ⊢
  induction frames with
  | nil => rfl
  | cons other rest ih =>
    have different : id ≠ other := by
      rintro rfl
      exact apart ⟨[], rest, rfl, nofun⟩
    rw [List.findSome?_cons, List.findSome?_cons, get?_frame_setCell,
      if_neg fun all => different all.1]
    cases held : (env.frame other).get? slot with
    | some old => rfl
    | none =>
      refine ih ?_
      rintro ⟨nearer, farther, split, lack⟩
      refine apart ⟨other :: nearer, farther, congrArg (other :: ·) split, fun inner member => ?_⟩
      rcases List.mem_cons.mp member with same | behind
      · rw [same, held]
      · exact lack inner behind

/-- The frame that a search ends in is the one that the chain comes to. -/
theorem comesTo_iff_of_holds {id : FrameId} {chain : Chain}
    (holds : ((env.frame id).get? slot).isSome = true) :
    env.ComesTo slot chain id ↔ env.find? chain slot = some id := by
  rw [find?_eq_some_iff]
  constructor
  · rintro ⟨nearer, farther, split, lack⟩
    exact ⟨nearer, farther, split, holds, lack⟩
  · rintro ⟨nearer, farther, split, -, lack⟩
    exact ⟨nearer, farther, split, lack⟩

theorem Operation.after_assign_of_found {id : FrameId} {value : Value}
    (found : env.find? env.current slot = some id) :
    (Operation.assign slot value).after env = env.setCell id slot value := by
  simp only [Operation.after, assign?, found, Option.map_some, Option.getD_some]

theorem Operation.after_assign_of_missing {value : Value}
    (missing : env.find? env.current slot = none) :
    (Operation.assign slot value).after env = env := by
  simp only [Operation.after, assign?, missing, Option.map_none, Option.getD_none]

/-! ### What every operation keeps -/

/-- Chains follow the links, and each frame stands within an older one. -/
structure Linked (env : Environment) (handles : List Chain) (links : Links) : Prop where
  older : ∀ id outer, links id = some outer → outer < id
  walk : ∀ chain, env.Known handles chain → Walk links chain.frames
  inside : ∀ chain, env.Known handles chain → ∀ id ∈ chain.frames, id < env.frames.size

theorem Walk.update {frames : List FrameId} (walk : Walk links frames) {fresh : FrameId}
    (apart : ∀ id ∈ frames, id ≠ fresh) (outer : Option FrameId) :
    Walk (Function.update links fresh outer) frames := by
  induction walk with
  | outermost last =>
    refine .outermost ?_
    rw [Function.update_of_ne (apart _ List.mem_cons_self), last]
  | within link walk ih =>
    refine .within ?_ (ih fun id member => apart id (List.mem_cons_of_mem _ member))
    rw [Function.update_of_ne (apart _ List.mem_cons_self), link]

section

variable {handles : List Chain} {chain newest : Chain} {after : Environment}

/-- The root never changes, and no handle is forgotten. -/
theorem Known.moved (later : after.Known handles chain) (root : after.root = env.root) :
    chain = after.current ∨ env.Known handles chain := by
  rcases later with current | outermost | member
  · exact .inl current
  · exact .inr (.inr (.inl (outermost.trans root)))
  · exact .inr (.inr (.inr member))

theorem Known.handed (later : env.Known (newest :: handles) chain) :
    chain = newest ∨ env.Known handles chain := by
  rcases later with current | outermost | member
  · exact .inr (.inl current)
  · exact .inr (.inr (.inl outermost))
  · exact (List.mem_cons.mp member).imp id fun before => .inr (.inr before)

end

namespace Linked

variable {handles more : List Chain} {after : Environment}

theorem new : Linked Environment.new [] fun _ => none := by
  have only (chain : Chain) (known : Environment.new.Known [] chain) : chain = ⟨0, []⟩ := by
    rcases known with current | root | member
    · exact current
    · exact root
    · cases member
  refine ⟨nofun, fun chain known => ?_, fun chain known id member => ?_⟩
  · rw [only chain known]
    exact .outermost rfl
  · rw [only chain known] at member
    rw [List.mem_singleton.mp member]
    exact Nat.one_pos

/-- Nothing is put on any chain. -/
theorem still (linked : Linked env handles links) (size : after.frames.size = env.frames.size)
    (known : ∀ chain, after.Known more chain → env.Known handles chain) :
    Linked after more links where
  older := linked.older
  walk chain later := linked.walk chain (known chain later)
  inside chain later := size ▸ linked.inside chain (known chain later)

/-- A frame is put on a chain. -/
theorem put (linked : Linked env handles links) {ground : Chain} (standing : env.Known handles ground)
    (size : after.frames.size = env.frames.size + 1)
    (known : ∀ chain, after.Known more chain → env.Known handles chain ∨ chain = env.inner ground) :
    Linked after more (Function.update links env.frames.size (some ground.frame)) := by
  have walk (chain : Chain) (before : env.Known handles chain) :
      Walk (Function.update links env.frames.size (some ground.frame)) chain.frames :=
    (linked.walk chain before).update
      (fun id member => Nat.ne_of_lt (linked.inside chain before id member)) _
  refine ⟨fun id outer link => ?_, fun chain later => ?_, fun chain later id member => ?_⟩
  · by_cases fresh : id = env.frames.size
    · rw [fresh, Function.update_self] at link
      cases link
      rw [fresh]
      exact linked.inside ground standing _ List.mem_cons_self
    · rw [Function.update_of_ne fresh] at link
      exact linked.older id outer link
  · rcases known chain later with before | rfl
    · exact walk chain before
    · exact .within (Function.update_self _ _ _) (walk ground standing)
  · rw [size]
    rcases known chain later with before | rfl
    · exact Nat.lt_succ_of_lt (linked.inside chain before id member)
    · rcases List.mem_cons.mp member with same | outward
      · rw [same]
        exact Nat.lt_succ_self _
      · exact Nat.lt_succ_of_lt (linked.inside ground standing id outward)

theorem step (linked : Linked env handles links) (op : Operation)
    (given : ∀ chain, op.given? = some chain → chain ∈ handles) :
    Linked (op.after env) (op.handedOut env ++ handles) (links.after env op) := by
  have current : env.Known handles env.current := .inl rfl
  cases op with
  | define slot value => exact linked.still (env.size_setCell ..) fun _ => id
  | get slot => exact linked.still rfl fun _ => id
  | assign slot value =>
    cases found : env.find? env.current slot with
    | none =>
      rw [Operation.after_assign_of_missing found]
      exact linked.still rfl fun _ known => known
    | some frame =>
      rw [Operation.after_assign_of_found found]
      exact linked.still (env.size_setCell ..) fun _ known => known
  | capture =>
    refine linked.still rfl fun chain later => ?_
    rcases Known.handed later with rfl | before
    · exact current
    · exact before
  | restore chain =>
    refine linked.still rfl fun other later => ?_
    rcases Known.moved later (rfl : _ = env.root) with rfl | before
    · exact .inr (.inr (given _ rfl))
    · exact before
  | reset =>
    refine linked.still rfl fun other later => ?_
    rcases Known.moved later (rfl : _ = env.root) with rfl | before
    · exact .inr (.inl rfl)
    · exact before
  | enter =>
    refine linked.put current (Array.size_push _) fun chain later => ?_
    rcases Known.handed later with rfl | again
    · exact .inl current
    · exact (Known.moved again (rfl : _ = env.root)).symm
  | graft ground =>
    refine linked.put (.inr (.inr (given ground rfl))) (Array.size_push _) fun chain later => ?_
    rcases Known.handed later with rfl | again
    · exact .inl current
    · exact (Known.moved again (rfl : _ = env.root)).symm
  | extend ground slot value =>
    refine linked.put (.inr (.inr (given ground rfl))) (Array.size_push _) fun chain later => ?_
    exact (Known.handed later).symm

end Linked

theorem Reached.linked {handles : List Chain} (reached : Reached env handles links) :
    Linked env handles links := by
  induction reached with
  | new => exact .new
  | step op before given ih => exact ih.step op given

/-! ### What handles read -/

/-- A new frame is read through no handle that was there before. -/
theorem read?_push {chain : Chain} (inside : ∀ id ∈ chain.frames, id < env.frames.size)
    (cells : Frame) (slot : Slot) : (env.push cells).read? chain slot = env.read? chain slot := by
  unfold read?
  generalize chain.frames = frames at inside ⊢
  induction frames with
  | nil => rfl
  | cons id rest ih =>
    have old := Nat.ne_of_lt (inside id List.mem_cons_self)
    rw [List.findSome?_cons, List.findSome?_cons, frame_push, if_neg old,
      ih fun other member => inside other (List.mem_cons_of_mem _ member)]

/-- What an operation does not write to is read as before. -/
theorem Linked.read?_after {handles : List Chain} (linked : Linked env handles links) (op : Operation)
    {chain : Chain} (known : env.Known handles chain) (unwritten : op.written? ≠ some slot) :
    (op.after env).read? chain slot = env.read? chain slot := by
  have inside := linked.inside chain known
  cases op with
  | define written value =>
    have different : written ≠ slot := fun same => unwritten (congrArg some same)
    exact read?_setCell_of_ne value different chain
  | assign written value =>
    cases found : env.find? env.current written with
    | none => rw [Operation.after_assign_of_missing found]
    | some id =>
      have different : written ≠ slot := fun same => unwritten (congrArg some same)
      rw [Operation.after_assign_of_found found]
      exact read?_setCell_of_ne value different chain
  | get | capture | restore | reset => rfl
  | enter | graft | extend => exact read?_push inside _ slot

theorem find?_eq_none_iff {chain : Chain} :
    env.find? chain slot = none ↔ env.read? chain slot = none := by
  constructor
  · exact read?_of_find?_eq_none
  · intro unread
    cases found : env.find? chain slot with
    | none => rfl
    | some id =>
      obtain ⟨before, after, split, holds, others⟩ := find?_eq_some_iff.mp found
      rw [← read?_of_find? found, unread] at holds
      cases holds

theorem assign?_eq_none_iff {value : Value} :
    env.assign? slot value = none ↔ env.find? env.current slot = none :=
  Option.map_eq_none_iff

/-- Frames are shared cells. In every environment that is reached by operations, every frame stands within an
older one or within none, and a chain that was given out is a frame with those that it stands within. The
search for a slot through it ends, and what is read is what the frame holds in which the search ends. No
operation changes what is read for a slot that it does not write to. A definition is seen through the chains
that come to the current frame before they meet the slot, and through no other. An assignment succeeds if and
only if the search from the current chain finds a frame; it is then seen through the chains whose search ends
in this frame, and through no other. One that fails, and a look-up, change nothing. -/
theorem frames_are_shared_cells {env : Environment} {handles : List Chain} {links : Links}
    (reached : Reached env handles links) :
    (∀ id outer, links id = some outer → outer < id) ∧
    (∀ slot value, (env.get? slot = none ↔ env.find? env.current slot = none) ∧
      (env.assign? slot value = none ↔ env.find? env.current slot = none) ∧
      (env.assign? slot value = none → (Operation.assign slot value).after env = env) ∧
      (Operation.get slot).after env = env) ∧
    ∀ chain, env.Known handles chain →
      Walk links chain.frames ∧
      (∀ slot, Searches links env slot chain.frame (env.find? chain slot) ∧
        (∀ found, Searches links env slot chain.frame found → found = env.find? chain slot) ∧
        env.read? chain slot =
          (env.find? chain slot).bind fun id => (env.frame id).get? slot) ∧
      (∀ (op : Operation) slot, op.written? ≠ some slot →
        (op.after env).read? chain slot = env.read? chain slot) ∧
      ∀ slot value,
        (env.ComesTo slot chain env.current.frame →
          (env.define slot value).read? chain slot = some value) ∧
        (¬env.ComesTo slot chain env.current.frame →
          (env.define slot value).read? chain slot = env.read? chain slot) ∧
        ∀ after, env.assign? slot value = some after →
          (env.find? chain slot = env.find? env.current slot →
            after.read? chain slot = some value) ∧
          (env.find? chain slot ≠ env.find? env.current slot →
            after.read? chain slot = env.read? chain slot) := by
  have linked := reached.linked
  refine ⟨linked.older, fun slot value => ?_, fun chain known => ?_⟩
  · refine ⟨find?_eq_none_iff.symm, assign?_eq_none_iff, fun failed => ?_, rfl⟩
    exact Operation.after_assign_of_missing (assign?_eq_none_iff.mp failed)
  have walk := linked.walk chain known
  have inside := linked.inside chain known
  refine ⟨walk, fun slot => ?_, fun op slot => linked.read?_after op known, fun slot value => ?_⟩
  · have ends : Searches links env slot chain.frame (env.find? chain slot) := walk.searches _ rfl
    refine ⟨ends, fun found search => search.unique ends, ?_⟩
    cases found : env.find? chain slot with
    | none => exact read?_of_find?_eq_none found
    | some id => exact read?_of_find? found
  · have room := linked.inside env.current (.inl rfl) env.current.frame List.mem_cons_self
    refine ⟨read?_setCell_of_comesTo value room, read?_setCell_of_not_comesTo value, ?_⟩
    intro after assigned
    obtain ⟨id, found, rfl⟩ := Option.map_eq_some_iff.mp assigned
    obtain ⟨nearer, farther, split, holds, -⟩ := find?_eq_some_iff.mp found
    rw [found, Ne, ← comesTo_iff_of_holds holds]
    refine ⟨fun comes => ?_, read?_setCell_of_not_comesTo value⟩
    refine read?_setCell_of_comesTo value ?_ comes
    exact linked.inside env.current (.inl rfl) id (split ▸ by simp)

/-- A closure kept a frame that was left; an assignment in a call of it is seen through the kept chain, and
not through the outermost one. -/
theorem frames_are_shared_cells_of_closure :
    let root : Chain := ⟨0, []⟩
    let closure : Chain := ⟨1, [0]⟩
    let made := ((Operation.define 3 .nil).after (Operation.enter.after Environment.new))
    let called := (Operation.graft closure).after ((Operation.restore root).after made)
    (∃ links, Reached called [root, closure, root] links) ∧
      called.Known [root, closure, root] closure ∧ called.Known [root, closure, root] root ∧
      ∃ after, called.assign? 3 (.bool true) = some after ∧
        called.find? closure 3 = called.find? called.current 3 ∧
        called.find? root 3 ≠ called.find? called.current 3 ∧
        after.read? closure 3 = some (.bool true) ∧ after.read? root 3 = called.read? root 3 := by
  intro root closure made called
  have entered := Reached.new.step .enter nofun
  have kept := (entered.step (.define 3 .nil) nofun).step .capture nofun
  have left := kept.step (.restore root) (by rintro _ ⟨⟩; exact .tail _ (.head _))
  have reached := left.step (.graft closure) (by rintro _ ⟨⟩; exact .head _)
  have known : called.Known [root, closure, root] closure := .inr (.inr (.tail _ (.head _)))
  have outermost : called.Known [root, closure, root] root := .inr (.inl rfl)
  have cells := frames_are_shared_cells reached
  refine ⟨⟨_, reached⟩, known, outermost, _, rfl, by decide, by decide, ?_, ?_⟩
  · exact ((cells.2.2 closure known).2.2.2 3 (.bool true)).2.2 _ rfl |>.1 (by decide)
  · exact ((cells.2.2 root outermost).2.2.2 3 (.bool true)).2.2 _ rfl |>.2 (by decide)

end Lox.Environment
