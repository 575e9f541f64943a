import Lox.Proofs.Grammar.Program
import Lox.Proofs.Outcome
import Lox.Proofs.Scope.Place
import Mathlib.Data.List.Nodup
import Mathlib.Data.List.Pairwise

set_option autoImplicit false

/-! What an accepted program binds. A walk through some sites leaves all other entries alone, gives
the declarations it meets new slots one after the other, and binds each node as the path to the root
says; two walks one after the other do so together, since no node is met twice. -/

namespace Lox

namespace Bindings

def Binds (bindings : Bindings) (id : NodeId) (slot : Slot) : Prop :=
  bindings.slot? id = some slot

def Grows (before after : Bindings) : Prop :=
  ∀ id slot, before.Binds id slot → after.Binds id slot

/-- A node that refers to a name has the slot of the declaration that the name means, if there is one,
and no slot otherwise. -/
def Means (bindings : Bindings) (path : Path) (name : String) (id : NodeId) : Prop :=
  match path.declaration? name with
  | none => bindings.slot? id = none
  | some declaration => ∃ slot, bindings.Binds declaration slot ∧ bindings.Binds id slot

theorem Grows.trans {first second third : Bindings} (one : first.Grows second)
    (two : second.Grows third) : first.Grows third :=
  fun id slot known => two id slot (one id slot known)

end Bindings

/-- What the table of bindings says about a site. -/
def Site.Bound (bindings : Bindings) (site : Site) : Prop :=
  match site.mention with
  | .declaration id _ => (bindings.slot? id).isSome = site.path.isLocal
  | .receiver id => (bindings.slot? id).isSome = true
  | .reference id name => bindings.Means site.path name.lexeme id
  | .this id keyword => bindings.Means site.path keyword.lexeme id
  | .ret _ _ => True
  | .member _ _ => True

theorem Site.Bound.mono {before after : Bindings} {site : Site} (bound : site.Bound before)
    (grows : before.Grows after)
    (same : ∀ id ∈ site.nodes, after.slot? id = before.slot? id) : site.Bound after := by
  obtain ⟨path, mention⟩ := site
  have means (name : String) (id : NodeId) (known : before.Means path name id)
      (sameId : after.slot? id = before.slot? id) : after.Means path name id := by
    unfold Bindings.Means at known ⊢
    cases found : path.declaration? name with
    | none =>
        rw [found] at known
        exact sameId.trans known
    | some declaration =>
        rw [found] at known
        obtain ⟨slot, declared, bound⟩ := known
        exact ⟨slot, grows _ _ declared, grows _ _ bound⟩
  cases mention with
  | declaration id name =>
      change (after.slot? id).isSome = _
      rw [same id List.mem_cons_self]
      exact bound
  | receiver id =>
      change (after.slot? id).isSome = _
      rw [same id List.mem_cons_self]
      exact bound
  | reference id name => exact means name.lexeme id bound (same id List.mem_cons_self)
  | this id keyword => exact means keyword.lexeme id bound (same id List.mem_cons_self)
  | ret keyword hasValue => exact trivial
  | member earlier name => exact trivial

/-- The declarations that get a slot at a site: local ones and receivers. -/
def Site.slotted (site : Site) : List NodeId :=
  match site.mention with
  | .declaration id _ => if site.path.isLocal then [id] else []
  | .receiver id => [id]
  | _ => []

theorem Site.mem_nodes_of_mem_slotted {site : Site} {id : NodeId} (member : id ∈ site.slotted) :
    id ∈ site.nodes := by
  obtain ⟨path, mention⟩ := site
  cases mention with
  | declaration own name =>
      rw [slotted, List.mem_ite_nil_right] at member
      exact member.2
  | receiver own => exact member
  | _ => cases member

def Sites.slotted (sites : List Site) : List NodeId :=
  sites.flatMap Site.slotted

theorem Sites.mem_nodes_of_mem_slotted {sites : List Site} {id : NodeId}
    (member : id ∈ slotted sites) : id ∈ nodes sites := by
  obtain ⟨site, inSites, own⟩ := List.mem_flatMap.mp member
  exact List.mem_flatMap.mpr ⟨site, inSites, Site.mem_nodes_of_mem_slotted own⟩

/-- No node belongs to two sites. -/
theorem Sites.eq_of_mem_nodes {sites : List Site} (nodup : (nodes sites).Nodup) {site other : Site}
    (member : site ∈ sites) (also : other ∈ sites) {id : NodeId} (own : id ∈ site.nodes)
    (shared : id ∈ other.nodes) : site = other := by
  have : Std.Symm (Function.onFun List.Disjoint Site.nodes) :=
    ⟨fun _ _ apart _ one two => apart two one⟩
  by_contra apart
  exact (List.nodup_flatMap.mp nodup).2.forall member also apart own shared

/-- What is bound by a walk through some sites. -/
structure Recorded (sites : List Site) (before after : Bindings) : Prop where
  frame : ∀ id, id ∉ Sites.nodes sites → after.slot? id = before.slot? id
  next : after.nextSlot = before.nextSlot + (Sites.slotted sites).length
  slots : (Sites.slotted sites).map after.slot? =
    (List.range' before.nextSlot (Sites.slotted sites).length).map some
  bound : ∀ site ∈ sites, site.Bound after

def Bindings.Fresh (bindings : Bindings) (sites : List Site) : Prop :=
  ∀ id ∈ Sites.nodes sites, bindings.slot? id = none

namespace Recorded

variable {sites rest : List Site} {before middle after : Bindings}

theorem nil (bindings : Bindings) : Recorded [] bindings bindings :=
  ⟨fun _ _ => rfl, rfl, rfl, fun _ impossible => nomatch impossible⟩

theorem grows (recorded : Recorded sites before after) (fresh : before.Fresh sites) :
    before.Grows after := by
  intro id slot known
  have other : id ∉ Sites.nodes sites := by
    intro member
    have none := fresh id member
    rw [known] at none
    cases none
  exact (recorded.frame id other).trans known

theorem append (one : Recorded sites before middle) (two : Recorded rest middle after)
    (nodup : (Sites.nodes (sites ++ rest)).Nodup) (fresh : middle.Fresh rest) :
    Recorded (sites ++ rest) before after := by
  rw [Sites.nodes_append] at nodup
  have disjoint := List.disjoint_of_nodup_append nodup
  have kept (id : NodeId) (member : id ∈ Sites.nodes sites) : after.slot? id = middle.slot? id :=
    two.frame id (disjoint member)
  have split : Sites.slotted (sites ++ rest) = Sites.slotted sites ++ Sites.slotted rest :=
    List.flatMap_append
  constructor
  · intro id other
    rw [Sites.nodes_append, List.mem_append, not_or] at other
    rw [two.frame id other.2, one.frame id other.1]
  · rw [two.next, one.next, split, List.length_append, Nat.add_assoc]
  · have first : (Sites.slotted sites).map after.slot? =
        (Sites.slotted sites).map middle.slot? :=
      List.map_congr_left fun id member => kept id (Sites.mem_nodes_of_mem_slotted member)
    rw [split, List.map_append, first, one.slots, two.slots, one.next, List.length_append,
      ← List.range'_append_1, List.map_append]
  · intro site member
    rcases List.mem_append.mp member with inFirst | inRest
    · refine (one.bound site inFirst).mono (two.grows fresh) fun id own => kept id ?_
      exact List.mem_flatMap.mpr ⟨site, inFirst, own⟩
    · exact two.bound site inRest

/-- Sites with no node make no difference. -/
theorem skip (recorded : Recorded sites before after) (idle : List Site)
    (noNodes : Sites.nodes idle = []) (bound : ∀ bindings, ∀ site ∈ idle, site.Bound bindings) :
    Recorded (idle ++ sites) before after := by
  have noSlots : Sites.slotted idle = [] := by
    refine List.eq_nil_iff_forall_not_mem.mpr fun id member => ?_
    have inNodes := Sites.mem_nodes_of_mem_slotted member
    rw [noNodes] at inNodes
    cases inNodes
  have split : Sites.slotted (idle ++ sites) = Sites.slotted sites := by
    rw [Sites.slotted, List.flatMap_append]
    change Sites.slotted idle ++ Sites.slotted sites = _
    rw [noSlots, List.nil_append]
  constructor
  · rw [Sites.nodes_append, noNodes, List.nil_append]
    exact recorded.frame
  · rw [split]
    exact recorded.next
  · rw [split]
    exact recorded.slots
  · intro site member
    rcases List.mem_append.mp member with inIdle | inSites
    · exact bound after site inIdle
    · exact recorded.bound site inSites

end Recorded

/-- A part of resolution that starts from a table without entries for its sites binds its sites and
yields something as it should be. If it fails, it has left the entries of all other nodes alone. -/
def Records {α : Type} (part : Resolve α) (before : Bindings) (sites : List Site)
    (good : Bindings → α → Prop) : Prop :=
  (Sites.nodes sites).Nodup → before.Fresh sites →
    match part before with
    | .ok a after => Recorded sites before after ∧ good after a
    | .error _ after => ∀ id, id ∉ Sites.nodes sites → after.slot? id = before.slot? id

namespace Records

variable {α β : Type} {part : Resolve α} {before : Bindings} {sites rest : List Site}
  {good : Bindings → α → Prop}

theorem pure {a : α} (isGood : good before a) : Records (return a) before [] good := by
  intro _ _
  exact ⟨Recorded.nil before, isGood⟩

theorem fail {fault : ResolutionFault} {token : Token} :
    Records (Resolve.fail fault token) before sites good := by
  intro _ _ id _
  rfl

theorem bind {next : Bindings → β → Prop} {second : α → Resolve β}
    (one : Records part before sites good)
    (two : ∀ a after, before.Grows after → good after a → Records (second a) after rest next) :
    Records (part >>= second) before (sites ++ rest) next := by
  intro nodup fresh
  have both := nodup
  rw [Sites.nodes_append] at both
  have freshFirst : before.Fresh sites := by
    intro id member
    exact fresh id (by rw [Sites.nodes_append]; exact List.mem_append_left _ member)
  have first := one both.of_append_left freshFirst
  cases result : part before with
  | error e after =>
      rw [result] at first
      rw [Outcome.bind_of_error result]
      intro id other
      rw [Sites.nodes_append, List.mem_append, not_or] at other
      exact first id other.1
  | ok a middle =>
      rw [result] at first
      rw [Outcome.bind_of_ok result]
      obtain ⟨recorded, isGood⟩ := first
      have freshRest : middle.Fresh rest := by
        intro id member
        have other : id ∉ Sites.nodes sites :=
          fun own => List.disjoint_of_nodup_append both own member
        rw [recorded.frame id other]
        exact fresh id (by rw [Sites.nodes_append]; exact List.mem_append_right _ member)
      have later := two a middle (recorded.grows freshFirst) isGood both.of_append_right freshRest
      cases outcome : second a middle with
      | ok b last =>
          rw [outcome] at later
          exact ⟨recorded.append later.1 nodup freshRest, later.2⟩
      | error e last =>
          rw [outcome] at later
          intro id other
          rw [Sites.nodes_append, List.mem_append, not_or] at other
          exact (later id other.2).trans (recorded.frame id other.1)

theorem imp {better : Bindings → α → Prop} (records : Records part before sites good)
    (improves : ∀ after a, before.Grows after → good after a → better after a) :
    Records part before sites better := by
  intro nodup fresh
  have kept := records nodup fresh
  cases result : part before with
  | ok a after =>
      rw [result] at kept
      exact ⟨kept.1, improves after a (kept.1.grows fresh) kept.2⟩
  | error e after =>
      rw [result] at kept
      exact kept

theorem map {next : Bindings → β → Prop} (records : Records part before sites good) (g : α → β)
    (improves : ∀ after a, before.Grows after → good after a → next after (g a)) :
    Records (do let a ← part; return g a) before sites next := by
  rw [← List.append_nil sites]
  exact records.bind fun a after grows isGood => Records.pure (improves after a grows isGood)

theorem skip (records : Records part before sites good) (idle : List Site)
    (noNodes : Sites.nodes idle = []) (bound : ∀ bindings, ∀ site ∈ idle, site.Bound bindings) :
    Records part before (idle ++ sites) good := by
  have same : Sites.nodes (idle ++ sites) = Sites.nodes sites := by
    rw [Sites.nodes_append, noNodes, List.nil_append]
  intro nodup fresh
  unfold Bindings.Fresh at fresh
  rw [same] at nodup fresh
  have kept := records nodup fresh
  cases result : part before with
  | ok a after =>
      rw [result] at kept
      exact ⟨kept.1.skip idle noNodes bound, kept.2⟩
  | error e after =>
      rw [result] at kept
      rw [same]
      exact kept

end Records

namespace Path

variable {path : Path} {name : String}

/-- A name without a declaration around has none that is finished. -/
theorem declaration?_of_nearest?_none (missing : path.nearest? name = none) :
    path.declaration? name = none := by
  have noneFound := List.find?_eq_none.mp missing
  rw [declaration?, Option.map_eq_none_iff, List.find?_eq_none]
  intro b member
  exact noneFound b (List.mem_of_mem_filter member)

/-- The nearest declaration of a name is what it means, unless it is underway. -/
theorem declaration?_of_nearest?_some {b : Binder} (nearest : path.nearest? name = some b)
    (finished : b.underway = false) : path.declaration? name = some b.id := by
  obtain ⟨named, before, after, split, others⟩ := List.find?_eq_some_iff_append.mp nearest
  have kept : (b :: after).filter (!·.underway) = b :: after.filter (!·.underway) := by
    rw [List.filter_cons_of_pos]
    rw [finished]
    rfl
  have found : (path.binders.filter (!·.underway)).find? (·.name == name) = some b := by
    rw [split, List.filter_append, kept]
    refine List.find?_eq_some_iff_append.mpr ⟨named, _, _, rfl, fun other member => ?_⟩
    exact others other (List.mem_of_mem_filter member)
  rw [declaration?, found]
  rfl

end Path

namespace Resolve

variable {place : Place} {path : Path} {before : Bindings}

theorem recorded_allocate {site : Site} {id : NodeId} (nodes : site.nodes = [id])
    (slotted : site.slotted = [id])
    (bound : ∀ bindings : Bindings, (bindings.slot? id).isSome = true → site.Bound bindings) :
    Recorded [site] before (before.allocate.2.bind id before.nextSlot) := by
  have allNodes : Sites.nodes [site] = [id] := by
    rw [Sites.nodes, List.flatMap_singleton, nodes]
  have allSlotted : Sites.slotted [site] = [id] := by
    rw [Sites.slotted, List.flatMap_singleton, slotted]
  have own : (before.allocate.2.bind id before.nextSlot).slot? id = some before.nextSlot := by
    rw [Bindings.slot?_bind, if_pos rfl]
  constructor
  · intro other different
    rw [allNodes, List.mem_singleton] at different
    rw [Bindings.slot?_bind, if_neg fun same => different same.symm, Bindings.slot?_allocate]
  · rw [allSlotted]
    rfl
  · rw [allSlotted, List.map_singleton, own]
    rfl
  · intro other member
    rw [List.mem_singleton.mp member]
    exact bound _ (by rw [own]; rfl)

theorem allocate_records (path : Path) (id : NodeId) :
    Records (allocate id) before [⟨path, .receiver id⟩]
      (fun after slot => after.Binds id slot) := by
  intro _ _
  refine ⟨recorded_allocate rfl rfl fun _ bound => bound, ?_⟩
  change Bindings.slot? _ id = _
  rw [Bindings.slot?_bind, if_pos rfl]

theorem declare_records (stands : place.Stands before.Binds path) (ready : Bool) (id : NodeId)
    (name : Token) :
    Records (declare place ready id name) before [⟨path, .declaration id name⟩]
      (fun after next => ∃ slot, next = place.add ⟨name.lexeme, slot, ready⟩ ∧
        (path.isLocal = true → after.Binds id slot) ∧
        ∀ scope outer, place.scopes = scope :: outer → ∀ d ∈ scope, d.name ≠ name.lexeme) := by
  unfold declare
  cases stands with
  | outside role inClass inField scopes =>
      rw [scopes]
      intro _ fresh
      refine ⟨⟨fun _ _ => rfl, rfl, rfl, ?_⟩, 0, ?_, nofun, ?_⟩
      · intro site member
        rw [List.mem_singleton.mp member]
        change (before.slot? id).isSome = false
        rw [fresh id List.mem_cons_self]
        rfl
      · simp only [Place.add, scopes]
      · intro scope outer impossible
        cases impossible
  | @inside step outer scope around opens role inClass inField scopes own others =>
      rw [scopes]
      have isLocal : Path.isLocal (step :: outer) = true := by rw [Path.isLocal_cons, opens]; rfl
      cases taken : scope.any (·.name == name.lexeme) with
      | true =>
          simp only [taken, if_true]
          exact Records.fail
      | false =>
          simp only [taken, Bool.false_eq_true, if_false]
          intro _ _
          refine ⟨recorded_allocate rfl (if_pos isLocal) fun bindings bound => ?_,
            before.nextSlot, ?_, fun _ => ?_, ?_⟩
          · exact bound.trans isLocal.symm
          · simp only [Place.add, scopes]
          · rw [Bindings.Binds, Bindings.slot?_bind, if_pos rfl]
          · intro _ _ same d member equal
            cases same
            have free := List.any_eq_false.mp taken d member
            simp [equal] at free

/-- The entry that resolution finds stands for the declaration that the name means. -/
theorem means_of_shows (shown : place.Shows before.Binds path) (name : String) :
    match place.find? name with
    | none => path.declaration? name = none
    | some declared => declared.ready = true →
      ∃ declaration, path.declaration? name = some declaration ∧
        before.Binds declaration declared.slot := by
  have same := shown.find? name
  cases entry : place.find? name with
  | none =>
      rw [entry] at same
      cases nearest : path.nearest? name with
      | none => exact Path.declaration?_of_nearest?_none nearest
      | some b =>
          rw [nearest] at same
          cases same
  | some declared =>
      rw [entry] at same
      intro ready
      cases nearest : path.nearest? name with
      | none =>
          rw [nearest] at same
          cases same
      | some b =>
          rw [nearest] at same
          cases same with
          | some agree =>
              have finished : b.underway = false := by
                simpa [ready] using agree.ready
              exact ⟨b.id, Path.declaration?_of_nearest?_some nearest finished, agree.slot⟩

theorem reference_records (shown : place.Shows before.Binds path) (id : NodeId) (name : Token)
    {site : Site} (nodes : site.nodes = [id]) (slotted : site.slotted = [])
    (bound : ∀ bindings : Bindings, bindings.Means path name.lexeme id → site.Bound bindings) :
    Records (reference place id name) before [site] (fun _ _ => True) := by
  have allNodes : Sites.nodes [site] = [id] := by
    rw [Sites.nodes, List.flatMap_singleton, nodes]
  have allSlotted : Sites.slotted [site] = [] := by
    rw [Sites.slotted, List.flatMap_singleton, slotted]
  have found := means_of_shows shown name.lexeme
  unfold reference
  cases entry : place.find? name.lexeme with
  | none =>
      rw [entry] at found
      intro _ fresh
      refine ⟨⟨fun _ _ => rfl, by rw [allSlotted]; rfl, by rw [allSlotted]; rfl, ?_⟩, trivial⟩
      intro other member
      rw [List.mem_singleton.mp member]
      apply bound before
      unfold Bindings.Means
      rw [found]
      exact fresh id (by rw [allNodes]; exact List.mem_cons_self)
  | some declared =>
      rw [entry] at found
      obtain ⟨_, slot, ready⟩ := declared
      cases ready with
      | false => exact Records.fail
      | true =>
          obtain ⟨declaration, means, known⟩ := found rfl
          intro _ fresh
          have own : (before.bind id slot).slot? id = some slot := by
            rw [Bindings.slot?_bind, if_pos rfl]
          refine ⟨⟨?_, by rw [allSlotted]; rfl, by rw [allSlotted]; rfl, ?_⟩, trivial⟩
          · intro other different
            rw [allNodes, List.mem_singleton] at different
            rw [Bindings.slot?_bind, if_neg fun same => different same.symm]
          · intro other member
            rw [List.mem_singleton.mp member]
            apply bound _
            unfold Bindings.Means
            rw [means]
            refine ⟨slot, ?_, own⟩
            change Bindings.slot? _ declaration = _
            rw [Bindings.slot?_bind]
            split
            · rfl
            · exact known

theorem declareParams_records {role : FunctionKind} :
    ∀ (parameters : List Param) (place : Place) (earlier : List Param) (before : Bindings),
      place.Stands before.Binds (.function role earlier [] :: path) →
      Records (declareParams place parameters) before (Sites.params role path earlier parameters)
        (fun after next => next.Stands after.Binds
          (.function role (parameters.reverse ++ earlier) [] :: path))
  | [], place, earlier, before, stands => Records.pure stands
  | param :: rest, place, earlier, before, stands => by
      rw [declareParams, Sites.params, ← List.singleton_append]
      apply (declare_records stands true param.id param.name).bind
      rintro next after grows ⟨slot, rfl, known, _⟩
      have grown := (stands.mono grows).follow param.id slot param.name known rfl
        (Place.follows_param role param earlier)
      apply (declareParams_records rest _ (param :: earlier) after grown).imp
      intro last next _ good
      rwa [List.reverse_cons, List.append_assoc, List.singleton_append]

theorem members_bound (path : Path) : ∀ (earlier : List String) (names : List Token)
    (bindings : Bindings), ∀ site ∈ Sites.members path earlier names, site.Bound bindings
  | earlier, [], bindings, site, member => by cases member
  | earlier, name :: rest, bindings, site, member => by
      cases member with
      | head => exact trivial
      | tail _ later => exact members_bound path (name.lexeme :: earlier) rest bindings site later

mutual

theorem expr_records : ∀ (e : Expr) (place : Place) (path : Path) (before : Bindings),
    place.Shows before.Binds path →
    Records (expr place e) before (Sites.expr path e) (fun _ _ => True)
  | .literal _, _, _, _, _ => Records.pure trivial
  | .unary _ right, place, path, before, shown => expr_records right place path before shown
  | .binary left _ right, place, path, before, shown =>
      (expr_records left place path before shown).bind fun _ after grows _ =>
        expr_records right place path after (shown.mono grows)
  | .logical left _ right, place, path, before, shown =>
      (expr_records left place path before shown).bind fun _ after grows _ =>
        expr_records right place path after (shown.mono grows)
  | .ternary condition thenBranch elseBranch, place, path, before, shown => by
      rw [Sites.expr, List.append_assoc]
      exact (expr_records condition place path before shown).bind fun _ after grows _ =>
        (expr_records thenBranch place path after (shown.mono grows)).bind fun _ last more _ =>
          expr_records elseBranch place path last (shown.mono (grows.trans more))
  | .grouping inner, place, path, before, shown => expr_records inner place path before shown
  | .variable id name, _, _, before, shown =>
      reference_records shown id name rfl rfl fun _ means => means
  | .assign id name value, place, path, before, shown =>
      (expr_records value place path before shown).bind fun _ after grows _ =>
        reference_records (shown.mono grows) id name rfl rfl fun _ means => means
  | .call callee _ arguments, place, path, before, shown =>
      (expr_records callee place path before shown).bind fun _ after grows _ =>
        exprs_records arguments place path after (shown.mono grows)
  | .function decl, place, path, before, shown =>
      function_records decl .function place path before shown
  | .get object _, place, path, before, shown => expr_records object place path before shown
  | .set object _ value, place, path, before, shown =>
      (expr_records value place path before shown).bind fun _ after grows _ =>
        expr_records object place path after (shown.mono grows)
  | .this id keyword, place, path, before, shown => by
      rw [expr, Sites.expr]
      split
      · exact Records.fail
      · split
        · exact Records.fail
        · exact reference_records shown id keyword rfl rfl fun _ means => means

theorem exprs_records : ∀ (es : List Expr) (place : Place) (path : Path) (before : Bindings),
    place.Shows before.Binds path →
    Records (exprs place es) before (Sites.exprs path es) (fun _ _ => True)
  | [], _, _, _, _ => Records.pure trivial
  | e :: rest, place, path, before, shown =>
      (expr_records e place path before shown).bind fun _ after grows _ =>
        exprs_records rest place path after (shown.mono grows)

theorem stmt_records : ∀ (s : Stmt) (place : Place) (path : Path) (before : Bindings),
    place.Stands before.Binds path →
    Records (stmt place s) before (Sites.stmt path s)
      (fun after next => next.Stands after.Binds (path.past s))
  | .expression value, place, path, before, stands =>
      (expr_records value place path before stands.shows).map _ fun _ _ grows _ =>
        (stands.mono grows).past_nil rfl
  | .print value, place, path, before, stands =>
      (expr_records value place path before stands.shows).map _ fun _ _ grows _ =>
        (stands.mono grows).past_nil rfl
  | .var id name none, place, path, before, stands => by
      rw [stmt, Sites.stmt]
      apply (declare_records stands false id name).map _
      rintro after next grows ⟨slot, rfl, known, fresh⟩
      rw [place.markReady_add name.lexeme slot fresh]
      exact (stands.mono grows).past id slot name known rfl
  | .var id name (some initial), place, path, before, stands => by
      rw [stmt, Sites.stmt, ← List.singleton_append]
      apply (declare_records stands false id name).bind
      rintro inside after grows ⟨slot, rfl, known, fresh⟩
      refine (expr_records initial _ (.initializer id name :: path) after
        ((stands.mono grows).initializer id slot name known)).map _ fun last _ more _ => ?_
      rw [place.markReady_add name.lexeme slot fresh]
      exact (stands.mono (grows.trans more)).past id slot name
        (fun isLocal => more _ _ (known isLocal)) rfl
  | .block body, place, path, before, stands =>
      (stmts_records body _ (.block [] :: path) before stands.shows.block).map _
        fun _ _ grows _ => (stands.mono grows).past_nil rfl
  | .branch condition thenBranch none, place, path, before, stands => by
      rw [stmt, Sites.stmt]
      refine (expr_records condition place path before stands.shows).bind fun _ after grows _ => ?_
      apply (stmt_records thenBranch place path after (stands.mono grows)).map _
      intro _ next _ good
      exact good.of_declared rfl
  | .branch condition thenBranch (some elseBranch), place, path, before, stands => by
      rw [stmt, Sites.stmt, List.append_assoc]
      refine (expr_records condition place path before stands.shows).bind fun _ after grows _ => ?_
      apply (stmt_records thenBranch place path after (stands.mono grows)).bind
      intro next last more good
      apply (stmt_records elseBranch next (path.past thenBranch) last good).imp
      intro _ final _ better
      exact better.past_past rfl
  | .loop condition body, place, path, before, stands =>
      (expr_records condition place path before stands.shows).bind fun _ after grows _ =>
        (stmt_records body place path after (stands.mono grows)).imp fun _ _ _ good =>
          good.of_declared rfl
  | .function id name decl, place, path, before, stands => by
      rw [stmt, Sites.stmt, ← List.singleton_append]
      apply (declare_records stands true id name).bind
      rintro next after grows ⟨slot, rfl, known, _⟩
      refine (function_records decl .function _ (.own id name :: path) after
        ((stands.mono grows).own id slot name known)).map _ fun _ _ more _ => ?_
      exact (stands.mono (grows.trans more)).past id slot name
        (fun isLocal => more _ _ (known isLocal)) rfl
  | .ret keyword none, ⟨scopes, role, inClass, inField⟩, path, before, stands => by
      cases role with
      | none => exact Records.fail
      | some kind =>
          refine (Records.pure (stands.past_nil rfl)).skip [⟨path, .ret keyword false⟩] rfl ?_
          intro bindings site member
          rw [List.mem_singleton.mp member]
          exact trivial
  | .ret keyword (some value), ⟨scopes, role, inClass, inField⟩, path, before, stands => by
      have bound : ∀ (bindings : Bindings) (site : Site),
          site ∈ [⟨path, .ret keyword true⟩] → site.Bound bindings := by
        intro bindings site member
        rw [List.mem_singleton.mp member]
        exact trivial
      have walked : Records (do
          expr ⟨scopes, role, inClass, inField⟩ value
          return (⟨scopes, role, inClass, inField⟩ : Place)) before (Sites.expr path value)
          (fun after next => next.Stands after.Binds (path.past (.ret keyword (some value)))) :=
        (expr_records value _ path before stands.shows).map _ fun _ _ grows _ =>
          (stands.mono grows).past_nil rfl
      rw [Sites.stmt, ← List.singleton_append]
      cases role with
      | none => exact Records.fail
      | some kind =>
          cases kind with
          | initializer => exact Records.fail
          | function => exact walked.skip _ rfl bound
          | method => exact walked.skip _ rfl bound
  | .class id name thisId fieldDecls methodDecls, place, path, before, stands => by
      rw [stmt, Sites.stmt, ← List.singleton_append]
      apply (declare_records stands true id name).bind
      rintro next after grows ⟨slot, rfl, known, _⟩
      have inOwn := (stands.mono grows).own id slot name known
      cases repeated : repeatedMember? [] (memberNames fieldDecls methodDecls) with
      | some member => exact Records.fail
      | none =>
          refine Records.skip ?_ _ (Sites.nodes_members _ _ _) fun bindings =>
            members_bound _ _ _ bindings
          rw [← List.singleton_append]
          refine (allocate_records _ thisId).bind fun thisSlot last more own => ?_
          have inside := (inOwn.mono more).members thisId thisSlot own
          refine (fields_records fieldDecls _ _ last inside.field).bind fun _ final further _ => ?_
          apply (methods_records methodDecls _ _ final (inside.mono further)).map _
          intro _ _ rest _
          have all := grows.trans (more.trans (further.trans rest))
          exact (stands.mono all).past id slot name
            (fun isLocal => (more.trans (further.trans rest)) _ _ (known isLocal)) rfl

theorem stmts_records : ∀ (ss : List Stmt) (place : Place) (path : Path) (before : Bindings),
    place.Stands before.Binds path →
    Records (stmts place ss) before (Sites.stmts path ss) (fun _ _ => True)
  | [], _, _, _, _ => Records.pure trivial
  | s :: rest, place, path, before, stands =>
      (stmt_records s place path before stands).bind fun next after _ good =>
        stmts_records rest next (path.past s) after good

theorem function_records : ∀ (decl : FunctionDecl) (role : FunctionKind) (place : Place)
    (path : Path) (before : Bindings),
    place.Shows before.Binds path →
    Records (function { place with role := some role } decl) before
      (Sites.function role path decl) (fun _ _ => True)
  | .mk _ _ parameters body, role, place, path, before, shown => by
      refine (declareParams_records parameters _ [] before (shown.function role)).bind
        fun inside after _ stands => ?_
      rw [List.append_nil] at stands
      exact (stmts_records body inside _ after stands).map _ fun _ _ _ _ => trivial

theorem methods_records : ∀ (decls : List FunctionDecl) (place : Place) (path : Path)
    (before : Bindings),
    place.Shows before.Binds path →
    Records (methods place decls) before (Sites.methods path decls) (fun _ _ => True)
  | [], _, _, _, _ => Records.pure trivial
  | method :: rest, place, path, before, shown =>
      (function_records method (methodRole method.kind) place path before shown).bind
        fun _ after grows _ => methods_records rest place path after (shown.mono grows)

theorem fields_records : ∀ (decls : List FieldDecl) (place : Place) (path : Path)
    (before : Bindings),
    place.Shows before.Binds path →
    Records (fields place decls) before (Sites.fields path decls) (fun _ _ => True)
  | [], _, _, _, _ => Records.pure trivial
  | .mk _ none :: rest, place, path, before, shown =>
      fields_records rest place path before shown
  | .mk _ (some value) :: rest, place, path, before, shown =>
      (expr_records value place path before shown).bind fun _ after grows _ =>
        fields_records rest place path after (shown.mono grows)

end
end Resolve

/-- A program whose nodes have no entry yet is bound site by site if it is accepted; if it is refused,
no other node is affected. -/
theorem resolve_records {before : Bindings} {program : List Stmt}
    (nodup : (Nodes.stmts program).Nodup)
    (fresh : ∀ id ∈ Nodes.stmts program, before.slot? id = none) :
    match resolve before program with
    | (none, after) => Recorded (Sites.program program) before after
    | (some _, after) => ∀ id, id ∉ Nodes.stmts program → after.slot? id = before.slot? id := by
  have records := Resolve.stmts_records program Place.top [] before Place.stands_top
  unfold Records Bindings.Fresh at records
  rw [Sites.nodes_stmts] at records
  have kept := records nodup fresh
  unfold resolve
  cases result : Resolve.stmts Place.top program before with
  | ok place after =>
      rw [result] at kept
      exact kept.1
  | error e after =>
      rw [result] at kept
      exact kept

theorem resolve_recorded {before : Bindings} {program : List Stmt}
    (nodup : (Nodes.stmts program).Nodup)
    (fresh : ∀ id ∈ Nodes.stmts program, before.slot? id = none)
    (accepted : (resolve before program).1 = none) :
    Recorded (Sites.program program) before (resolve before program).2 := by
  have records := resolve_records nodup fresh
  cases result : resolve before program with
  | mk refused after =>
      rw [result] at accepted records
      cases accepted
      exact records

/-- Nodes that have not been given out yet have no entry. -/
def Bindings.Below (bindings : Bindings) (firstId : NodeId) : Prop :=
  ∀ id, firstId ≤ id → bindings.slot? id = none

/-- Whether a program is accepted or not, nodes that are not its own keep their slots. -/
theorem resolve_outside {bindings : Bindings} {first last : NodeId} {program : List Stmt}
    (fit : Grammar.Fit.stmts first last program) (below : bindings.Below first) {id : NodeId}
    (outside : id < first ∨ last ≤ id) :
    (resolve bindings program).2.slot? id = bindings.slot? id := by
  have records := resolve_records fit.numbered.nodup fun id member =>
    below id (fit.numbered.bounds member).1
  have other : id ∉ Nodes.stmts program := by
    intro member
    have bounds := fit.numbered.bounds member
    rcases outside with small | large
    · exact absurd small (Nat.not_lt.mpr bounds.1)
    · exact absurd bounds.2 (Nat.not_lt.mpr large)
  cases result : resolve bindings program with
  | mk refused after =>
      rw [result] at records
      cases refused with
      | none =>
          refine Recorded.frame records id ?_
          rw [Sites.nodes_program]
          exact other
      | some e => exact records id other

/-- In an accepted program each node is bound as the path to the root says: one that refers to a name
to the declaration that the name means there, each local declaration and receiver to a slot of its
own, and all others to nothing. -/
theorem resolve_binds_by_path (base : Nat) (text : List Char) (firstId : NodeId)
    (bindings : Bindings) (below : bindings.Below firstId)
    (accepted : (resolve bindings (Grammar.readText base text firstId).statements).1 = none) :
    let program := (Grammar.readText base text firstId).statements
    let after := (resolve bindings program).2
    (∀ site ∈ Sites.program program, site.Bound after) ∧
      ((Sites.slotted (Sites.program program)).map after.slot?).Nodup := by
  have fit := Grammar.readText_fit base text firstId
  have recorded := resolve_recorded fit.numbered.nodup
    (fun id member => below id (fit.numbered.bounds member).1) accepted
  refine ⟨recorded.bound, ?_⟩
  rw [recorded.slots]
  exact List.Nodup.map (fun _ _ => Option.some.inj) List.nodup_range'

theorem resolve_binds_nested_scopes :
    let program := (Grammar.readText 0
      "fun f(a) { { var a = 1; g = a; } class C { m() { return this; } } }".toList 0).statements
    let after := (resolve Bindings.empty program).2
    (∀ site ∈ Sites.program program, site.Bound after) ∧
      ((Sites.slotted (Sites.program program)).map after.slot?).Nodup :=
  resolve_binds_by_path 0 _ 0 Bindings.empty (fun _ _ => Bindings.slot?_empty _)
    (by decide +kernel)

end Lox
