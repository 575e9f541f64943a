import Lox.Proofs.Lexical.Shared

set_option autoImplicit false

/-! What a declaration does to the names in sight and to the room that is left for the cells of some code.
Code is placed part by part: each part has slots of its own, and what the parts before it have added takes
none of them. -/

namespace Lox

/-- After a declaration a name means it, if it is local. -/
structure Path.Adds (path other : Path) (id : NodeId) (name : String) : Prop where
  isLocal : other.isLocal = path.isLocal
  declaration? : ∀ wanted, other.declaration? wanted =
    if path.isLocal = true ∧ name = wanted then some id else path.declaration? wanted

namespace Path

theorem adds_past {path : Path} (holds : path.holdsStatements = true) {s : Stmt} {id : NodeId}
    {name : String} (declared : s.declared = [⟨id, name, false⟩]) :
    path.Adds (path.past s) id name :=
  ⟨isLocal_past, fun wanted => declaration?_past wanted holds declared⟩

theorem adds_own (path : Path) (id : NodeId) (name : Token) :
    path.Adds (.own id name :: path) id name.lexeme :=
  ⟨rfl, fun wanted => declaration?_own path wanted id name⟩

theorem adds_param (path : Path) (role : FunctionKind) (earlier : List Param) (param : Param) :
    Path.Adds (.function role earlier [] :: path) (.function role (param :: earlier) [] :: path)
      param.id param.name.lexeme := by
  refine ⟨rfl, fun wanted => ?_⟩
  rw [declaration?_param]
  have isLocal : Path.isLocal (.function role earlier [] :: path) = true := rfl
  simp only [isLocal, true_and]

theorem declaration?_of_not_isLocal {path : Path} (holds : path.holdsStatements = true)
    (global : path.isLocal = false) (name : String) : path.declaration? name = none := by
  cases path with
  | nil => rfl
  | cons step outer =>
      rw [isLocal_cons, show step.opensScope = true from holds] at global
      cases global

end Path

namespace Lexical

variable {bindings : Bindings} {w more : World} {path other : Path} {chain : Chain} {sight : Sight}
  {sites rest : List Site} {own : List Slot} {id : NodeId} {name : Token} {slot : Slot}

theorem Placed.left (placed : Placed bindings w path chain sight (sites ++ rest) own) :
    Placed bindings w path chain sight sites own :=
  placed.part (List.sublist_append_left _ _)

theorem Placed.right (placed : Placed bindings w path chain sight (sites ++ rest) own) :
    Placed bindings w path chain sight rest own :=
  placed.part (List.sublist_append_right _ _)

/-- What is within a declaration has no slot of its own in the innermost frame. -/
theorem Placed.tail {site : Site} (placed : Placed bindings w path chain sight (site :: rest) own)
    (covers : ∀ slot ∈ own, slot ∈ bindings.slotsOf site.slotted) :
    Placed bindings w path chain sight rest [] := by
  have distinct := placed.distinct
  change (bindings.slotsOf (site.slotted ++ Sites.slotted rest)).Nodup at distinct
  rw [Bindings.slotsOf_append] at distinct
  have inner := placed.part (List.sublist_cons_self site rest)
  refine ⟨inner.bound, inner.distinct, inner.sees, fun frame member slot belongs inRest => ?_, nofun⟩
  have isOwn := (inner.apart frame member slot belongs inRest).2
  exact absurd inRest (List.disjoint_of_nodup_append distinct (covers slot isOwn))

theorem Placed.move (placed : Placed bindings w path chain sight sites own) {inner : Sight}
    (sees : Sees bindings w other chain inner) : Placed bindings w other chain inner sites own :=
  ⟨placed.bound, placed.distinct, sees, placed.apart, placed.room⟩

theorem Placed.disjoint (placed : Placed bindings w path chain sight (sites ++ rest) own) :
    List.Disjoint (bindings.slotsOf (Sites.slotted sites))
      (bindings.slotsOf (Sites.slotted rest)) := by
  have distinct := placed.distinct
  rw [Sites.slotted, List.flatMap_append, Bindings.slotsOf_append] at distinct
  exact List.disjoint_of_nodup_append distinct

theorem Placed.first {later : List Slot}
    (placed : Placed bindings w path chain sight (sites ++ rest) (own ++ later))
    (covers : ∀ slot ∈ later, slot ∈ bindings.slotsOf (Sites.slotted rest)) :
    Placed bindings w path chain sight sites own := by
  have part := placed.left
  refine ⟨part.bound, part.distinct, part.sees, fun frame member slot belongs inSites => ?_,
    fun slot member => part.room slot (List.mem_append_left _ member)⟩
  obtain ⟨same, isOwn⟩ := part.apart frame member slot belongs inSites
  refine ⟨same, (List.mem_append.mp isOwn).resolve_right fun isLater => ?_⟩
  exact placed.disjoint inSites (covers slot isLater)

/-- The second part of some code, after the first has added its own cells. -/
theorem Placed.second {later : List Slot}
    (placed : Placed bindings w path chain sight (sites ++ rest) (own ++ later))
    (ownCovers : ∀ slot ∈ own, slot ∈ bindings.slotsOf (Sites.slotted sites))
    (covers : ∀ slot ∈ later, slot ∈ bindings.slotsOf (Sites.slotted rest)) (le : w.Le more)
    (fresh : ∀ place ∈ more.places, place ∈ w.places ∨ w.homes.length ≤ place.1 ∨
      place.1 = chain.frame ∧ place.2 ∈ own) :
    Placed bindings more path chain sight rest later := by
  have part := placed.right
  have narrow : Placed bindings w path chain sight rest later := by
    refine ⟨part.bound, part.distinct, part.sees, fun frame member slot belongs inRest => ?_,
      fun slot member => part.room slot (List.mem_append_right _ member)⟩
    obtain ⟨same, isOwn⟩ := part.apart frame member slot belongs inRest
    refine ⟨same, (List.mem_append.mp isOwn).resolve_left fun isFirst => ?_⟩
    exact placed.disjoint (ownCovers slot isFirst) inRest
  refine narrow.le le fun slot member present => ?_
  rcases fresh _ present with old | new | isOwn
  · exact (narrow.room slot member).2 old
  · exact Nat.not_lt.mpr new (narrow.sees.frames _ List.mem_cons_self)
  · exact placed.disjoint (ownCovers slot isOwn.2) (covers slot member)

theorem slotsOf_declaration (path : Path) (name : Token)
    (bound : Site.Bound bindings ⟨path, .declaration id name⟩) :
    bindings.slotsOf [id] = bindings.slotsOf (Site.slotted ⟨path, .declaration id name⟩) := by
  have declares : (bindings.slot? id).isSome = path.isLocal := bound
  cases isLocal : path.isLocal with
  | true => simp [Site.slotted, isLocal]
  | false =>
      rw [isLocal, Option.isSome_eq_false_iff, Option.isNone_iff_eq_none] at declares
      simp [Site.slotted, isLocal, Bindings.slotsOf, declares]

theorem Sees.add {slot : Slot} {name : String} (sees : Sees bindings w path chain sight)
    (isLocal : other.isLocal = path.isLocal)
    (means : ∀ wanted, other.declaration? wanted =
      if name = wanted then some id else path.declaration? wanted)
    (binds : bindings.Binds id slot)
    (only : ∀ frame ∈ chain.frames, slot ∈ w.home frame → frame = chain.frame) :
    Sees bindings (w.addCell chain.frame slot) other chain (sight.add name w.places.length) := by
  have later := sees.le (w.le_addCell chain.frame slot)
  refine ⟨sees.isLocal.trans isLocal.symm, later.frames, fun wanted absent => ?_,
    fun wanted declaration present => ?_⟩
  · rw [means] at absent
    rw [Sight.find?_add]
    split at absent
    · cases absent
    · next different =>
        rw [if_neg different]
        exact later.absent wanted absent
  · rw [means] at present
    rw [Sight.find?_add]
    split at present
    · next same =>
        cases present
        rw [if_pos same]
        refine ⟨slot, w.places.length, binds, rfl, chain.frame, List.mem_cons_self, ?_, only⟩
        simp [World.addCell]
    · next different =>
        rw [if_neg different]
        exact later.present wanted declaration present

theorem Sees.enter (sees : Sees bindings w path chain sight) {env : Environment}
    {cells : Array Value} (locals : Locals w env cells) {home : List Slot}
    (apart : ∀ frame ∈ chain.frames, ∀ slot ∈ w.home frame, slot ∉ home) :
    Sees bindings (w.enter home) path ⟨w.homes.length, chain.frames⟩ sight := by
  have later := sees.le (w.le_enter home)
  refine ⟨sees.isLocal, fun frame member => ?_, sees.absent, fun name declaration means => ?_⟩
  · cases member with
    | head => simp [World.enter]
    | tail _ outer => exact later.frames frame outer
  · obtain ⟨slot, cell, binds, found, frame, member, place, only⟩ :=
      sees.present name declaration means
    refine ⟨slot, cell, binds, found, frame, List.mem_cons_of_mem _ member, place,
      fun another inChain belongs => ?_⟩
    cases inChain with
    | head =>
        rw [World.home_enter] at belongs
        exact absurd belongs (apart frame member slot (locals.homed _ (List.mem_of_getElem? place)))
    | tail _ outer =>
        rw [(w.le_enter home).home (sees.frames another outer)] at belongs
        exact only another outer belongs

/-- Code that gets a new frame, to which some of its slots belong. -/
theorem Placed.enter (placed : Placed bindings w path chain sight sites []) {env : Environment}
    {cells : Array Value} (locals : Locals w env cells) {home : List Slot}
    (covers : ∀ slot ∈ home, slot ∈ bindings.slotsOf (Sites.slotted sites)) :
    Placed bindings (w.enter home) path ⟨w.homes.length, chain.frames⟩ sight sites home := by
  have apart (frame : FrameId) (member : frame ∈ chain.frames) (slot : Slot)
      (belongs : slot ∈ w.home frame) : slot ∉ bindings.slotsOf (Sites.slotted sites) :=
    fun inSites => nomatch (placed.apart frame member slot belongs inSites).2
  refine ⟨placed.bound, placed.distinct, placed.sees.enter locals fun frame member slot belongs
    isOwn => apart frame member slot belongs (covers slot isOwn),
    fun frame member slot belongs inSites => ?_, fun slot member => ⟨?_, fun place => ?_⟩⟩
  · cases member with
    | head =>
        rw [World.home_enter] at belongs
        exact ⟨rfl, belongs⟩
    | tail _ outer =>
        rw [(w.le_enter home).home (placed.sees.frames frame outer)] at belongs
        exact absurd inSites (apart frame outer slot belongs)
  · rw [World.home_enter]
    exact member
  · exact Nat.lt_irrefl _ (locals.small place)

/-- The code of a method in a new frame that holds the receiver. -/
theorem Placed.receive {thisId : NodeId}
    (placed : Placed bindings w path chain sight
      (⟨.members thisId :: path, .receiver thisId⟩ :: sites) []) {env : Environment}
    {cells : Array Value} (locals : Locals w env cells) (binds : bindings.Binds thisId slot) :
    Placed bindings ((w.enter [slot]).addCell w.homes.length slot) (.members thisId :: path)
      ⟨w.homes.length, chain.frames⟩ (sight.add "this" w.places.length) sites [] := by
  have own : bindings.slotsOf (Site.slotted ⟨.members thisId :: path, .receiver thisId⟩) =
      [slot] := by
    simp only [Site.slotted, Bindings.slotsOf, List.filterMap_cons, List.filterMap_nil,
      show bindings.slot? thisId = some slot from binds]
  have inSites : slot ∈ bindings.slotsOf
      (Sites.slotted (⟨.members thisId :: path, .receiver thisId⟩ :: sites)) := by
    change slot ∈ bindings.slotsOf (Site.slotted _ ++ Sites.slotted _)
    rw [Bindings.slotsOf_append, own]
    exact List.mem_cons_self
  have entered := placed.enter locals fun wanted member => by
    rw [List.mem_singleton.mp member]
    exact inSites
  have sees : Sees bindings ((w.enter [slot]).addCell w.homes.length slot)
      (.members thisId :: path) ⟨w.homes.length, chain.frames⟩
      (sight.add "this" w.places.length) :=
    entered.sees.add rfl (fun wanted => Path.declaration?_members path wanted thisId) binds
      fun frame member belongs => (entered.apart frame member slot belongs inSites).1
  have inside := entered.tail fun wanted member => by
    rw [own]
    exact member
  exact (inside.le_nil ((w.enter [slot]).le_addCell _ _)).move sees

theorem Sees.open (sees : Sees bindings w path chain sight) (other : Path)
    (isLocal : other.isLocal = true)
    (same : ∀ name, other.declaration? name = path.declaration? name) :
    Sees bindings w other chain sight.enter := by
  refine ⟨isLocal.symm, sees.frames, fun name means => ?_, fun name declaration means => ?_⟩
  · exact sees.absent name ((same name).symm.trans means)
  · exact sees.present name declaration ((same name).symm.trans means)

/-- A declaration outside all blocks and functions. -/
structure DeclaresGlobal (bindings : Bindings) (w : World) (path : Path) (chain : Chain)
    (sight : Sight) (id : NodeId) (name : Token) : Prop where
  isLocal : sight.isLocal = false
  own : bindings.slotsOf [id] = []
  sees : ∀ other, path.Adds other id name.lexeme → Sees bindings w other chain sight

/-- A declaration in a block or function, for whose cell there is room. -/
structure DeclaresLocal (bindings : Bindings) (w : World) (path : Path) (chain : Chain)
    (sight : Sight) (id : NodeId) (name : Token) (slot : Slot) : Prop where
  isLocal : sight.isLocal = true
  own : bindings.slotsOf [id] = [slot]
  small : chain.frame < w.homes.length
  belongs : slot ∈ w.home chain.frame
  new : (chain.frame, slot) ∉ w.places
  sees : ∀ other, path.Adds other id name.lexeme →
    Sees bindings (w.addCell chain.frame slot) other chain (sight.add name.lexeme w.places.length)

theorem Placed.declaresGlobal
    (placed : Placed bindings w path chain sight (⟨path, .declaration id name⟩ :: rest) own)
    (slotOf : bindings.slot? id = none) : DeclaresGlobal bindings w path chain sight id name := by
  have declares : (bindings.slot? id).isSome = path.isLocal := placed.bound _ List.mem_cons_self
  rw [slotOf] at declares
  refine ⟨placed.sees.isLocal.trans declares.symm, by simp [Bindings.slotsOf, slotOf],
    fun other adds => placed.sees.at_path adds.isLocal fun wanted => ?_⟩
  rw [adds.declaration?, ← declares, if_neg fun both => Bool.false_ne_true both.1]

theorem Placed.declaresLocal
    (placed : Placed bindings w path chain sight (⟨path, .declaration id name⟩ :: rest)
      (bindings.slotsOf [id])) (slotOf : bindings.slot? id = some slot) :
    DeclaresLocal bindings w path chain sight id name slot := by
  have declares : (bindings.slot? id).isSome = path.isLocal := placed.bound _ List.mem_cons_self
  rw [slotOf] at declares
  have own : bindings.slotsOf [id] = [slot] := by simp [Bindings.slotsOf, slotOf]
  have inSites : slot ∈ bindings.slotsOf
      (Sites.slotted (⟨path, .declaration id name⟩ :: rest)) := by
    refine Bindings.mem_slotsOf.mpr ⟨id, ?_, slotOf⟩
    simp [Sites.slotted, Site.slotted, ← declares]
  obtain ⟨belongs, new⟩ := placed.room slot (by rw [own]; exact List.mem_cons_self)
  refine ⟨placed.sees.isLocal.trans declares.symm, own, placed.sees.frames _ List.mem_cons_self,
    belongs, new, fun other adds => placed.sees.add adds.isLocal (fun wanted => ?_) slotOf
      fun frame member held => (placed.apart frame member slot held inSites).1⟩
  rw [adds.declaration?, ← declares]
  simp

end Lexical
end Lox
