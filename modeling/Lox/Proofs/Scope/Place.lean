import Lox.Proofs.Scope.Path
import Mathlib.Data.List.Forall2

set_option autoImplicit false

/-! A place that is passed down during resolution shows what the path to the root says: the same names
in the same order, ready unless their initializer is around the place, and the same function, class
and field. What is known about the slots of declarations is left open, so that the agreement serves
both for what is refused and for what is bound. -/

namespace Lox

/-- Agreement of an entry with the declaration that it stands for. -/
structure Declared.Shows (known : NodeId → Slot → Prop) (d : Declared) (b : Binder) : Prop where
  name : d.name = b.name
  ready : d.ready = !b.underway
  slot : known b.id d.slot

namespace Place

def add (place : Place) (d : Declared) : Place :=
  match place.scopes with
  | [] => place
  | scope :: outer => { place with scopes := (d :: scope) :: outer }

/-- A place shows a path. -/
structure Shows (known : NodeId → Slot → Prop) (place : Place) (path : Path) : Prop where
  role : place.role = path.role?
  inClass : place.inClass = path.inClass
  inField : place.inField = path.inField
  entries : List.Forall₂ (Declared.Shows known) place.scopes.flatten path.binders

/-- A place shows the path of a statement, which stands outside all scopes or directly in one. -/
inductive Stands (known : NodeId → Slot → Prop) (place : Place) : Path → Prop
  | outside (role : place.role = none) (inClass : place.inClass = false)
      (inField : place.inField = false) (scopes : place.scopes = []) : Stands known place []
  | inside {step : Step} {outer : Path} {scope : Scope} {around : List Scope}
      (opens : step.opensScope = true)
      (role : place.role = Path.role? (step :: outer))
      (inClass : place.inClass = Path.inClass (step :: outer))
      (inField : place.inField = Path.inField (step :: outer))
      (scopes : place.scopes = scope :: around)
      (own : List.Forall₂ (Declared.Shows known) scope (step.binders true))
      (others : List.Forall₂ (Declared.Shows known) around.flatten (Path.binders outer)) :
      Stands known place (step :: outer)

variable {known : NodeId → Slot → Prop} {place : Place} {path : Path}

theorem find?_shows {entries : List Declared} {binders : List Binder}
    (same : List.Forall₂ (Declared.Shows known) entries binders) (name : String) :
    Option.Rel (Declared.Shows known) (entries.find? (·.name == name))
      (binders.find? (·.name == name)) := by
  induction same with
  | nil => exact .none
  | @cons d b _ _ head _ ih =>
      by_cases found : b.name = name
      · have foundEntry : d.name = name := head.name.trans found
        simpa [List.find?_cons, found, foundEntry] using Option.Rel.some head
      · have otherEntry : d.name ≠ name := fun equal => found (head.name.symm.trans equal)
        simpa [List.find?_cons, found, otherEntry] using ih

theorem any_shows {entries : List Declared} {binders : List Binder}
    (same : List.Forall₂ (Declared.Shows known) entries binders) (name : String) :
    entries.any (·.name == name) = binders.any (·.name == name) := by
  induction same with
  | nil => rfl
  | cons head _ ih => rw [List.any_cons, List.any_cons, ih, head.name]

theorem Shows.find? (shown : place.Shows known path) (name : String) :
    Option.Rel (Declared.Shows known) (place.find? name) (path.nearest? name) := by
  rw [Place.find?, ← List.find?_flatten]
  exact find?_shows shown.entries name

theorem Shows.mono {more : NodeId → Slot → Prop} (shown : place.Shows known path)
    (grows : ∀ id slot, known id slot → more id slot) : place.Shows more path :=
  ⟨shown.role, shown.inClass, shown.inField,
    shown.entries.imp fun _ _ same => ⟨same.name, same.ready, grows _ _ same.slot⟩⟩

theorem Stands.mono {more : NodeId → Slot → Prop} (stands : place.Stands known path)
    (grows : ∀ id slot, known id slot → more id slot) : place.Stands more path := by
  have widen {d : Declared} {b : Binder} (same : d.Shows known b) : d.Shows more b :=
    ⟨same.name, same.ready, grows _ _ same.slot⟩
  cases stands with
  | outside role inClass inField scopes => exact .outside role inClass inField scopes
  | inside opens role inClass inField scopes own others =>
      exact .inside opens role inClass inField scopes (own.imp fun _ _ => widen)
        (others.imp fun _ _ => widen)

theorem Stands.shows (stands : place.Stands known path) : place.Shows known path := by
  cases stands with
  | outside role inClass inField scopes =>
      refine ⟨role, inClass, inField, ?_⟩
      rw [scopes]
      exact .nil
  | inside opens role inClass inField scopes own others =>
      refine ⟨role, inClass, inField, ?_⟩
      rw [scopes, List.flatten_cons, Path.binders, Step.binders_of_opensScope _ _ opens]
      exact List.rel_append own others

theorem stands_top : top.Stands known [] :=
  .outside rfl rfl rfl rfl

theorem Shows.block (shown : place.Shows known path) :
    (place.enter []).Stands known (.block [] :: path) :=
  .inside rfl shown.role shown.inClass shown.inField rfl .nil shown.entries

theorem Shows.function (shown : place.Shows known path) (role : FunctionKind) :
    ({ place with role := some role }.enter []).Stands known (.function role [] [] :: path) :=
  .inside rfl rfl shown.inClass (by simp [enter, shown.inField, Step.isMembers, Step.isField]) rfl
    .nil shown.entries

/-- The members of a class are entered; a field initializer says so itself. -/
theorem Shows.members (shown : place.Shows known path) (thisId : NodeId) (slot : Slot)
    (slotKnown : known thisId slot) :
    { place.enter [⟨"this", slot, true⟩] with inClass := true, inField := false }.Shows known
      (.members thisId :: path) :=
  ⟨shown.role, rfl, rfl, .cons ⟨rfl, rfl, slotKnown⟩ shown.entries⟩

theorem Shows.field (shown : place.Shows known path) :
    { place with inField := true }.Shows known (.field :: path) :=
  ⟨shown.role, shown.inClass, rfl, shown.entries⟩

/-- A step out of the same scope, with some more declarations before it. -/
structure Follows (next step : Step) (more : List Binder) : Prop where
  opens : next.opensScope = step.opensScope
  role : next.role? = step.role?
  members : next.isMembers = step.isMembers
  field : next.isField = step.isField
  binders : step.opensScope = true → next.binders true = more ++ step.binders true

theorem follows_past (s : Stmt) (step : Step) : Follows (step.past s) step s.declared :=
  ⟨step.opensScope_past s, step.role?_past s, step.isMembers_past s, step.isField_past s,
    step.binders_past s true⟩

theorem follows_param (role : FunctionKind) (param : Param) (params : List Param) :
    Follows (.function role (param :: params) []) (.function role params []) [param.binder] :=
  ⟨rfl, rfl, rfl, rfl, fun _ => rfl⟩

/-- A step with the same declarations before it can take the place of another. -/
theorem Stands.replace {next step : Step} {outer : Path}
    (stands : place.Stands known (step :: outer)) (follows : Follows next step []) :
    place.Stands known (next :: outer) := by
  cases stands with
  | inside opens role inClass inField scopes own others =>
      refine .inside (follows.opens.trans opens) ?_ ?_ ?_ scopes ?_ others
      · simpa [follows.role] using role
      · simpa [follows.members] using inClass
      · simpa [follows.members, follows.field] using inField
      · rwa [follows.binders opens, List.nil_append]

theorem Stands.past_nil {s : Stmt} (stands : place.Stands known path) (declares : s.declared = []) :
    place.Stands known (path.past s) := by
  cases path with
  | nil => exact stands
  | cons step outer => exact stands.replace (declares ▸ follows_past s step)

theorem Stands.of_declared {s other : Stmt} (stands : place.Stands known (path.past other))
    (declares : s.declared = other.declared) : place.Stands known (path.past s) := by
  cases path with
  | nil => exact stands
  | cons step outer =>
      refine stands.replace ⟨by simp, by simp, by simp, by simp, fun opens => ?_⟩
      rw [Step.opensScope_past] at opens
      rw [Step.binders_past _ _ _ opens, Step.binders_past _ _ _ opens, declares, List.nil_append]

theorem Stands.past_past {s first second : Stmt}
    (stands : place.Stands known ((path.past first).past second))
    (declares : s.declared = second.declared ++ first.declared) :
    place.Stands known (path.past s) := by
  cases path with
  | nil => exact stands
  | cons step outer =>
      refine stands.replace ⟨by simp, by simp, by simp, by simp, fun opens => ?_⟩
      rw [Step.opensScope_past] at opens
      have opensFirst := opens
      rw [Step.opensScope_past] at opensFirst
      rw [Step.binders_past _ _ _ opensFirst, Step.binders_past _ _ _ opens,
        Step.binders_past _ _ _ opensFirst, declares, List.nil_append, List.append_assoc]

/-- Out of a place that finds one declaration, if it is local. -/
structure Finds (step : Step) (b : Binder) : Prop where
  role : step.role? = none
  members : step.isMembers = false
  field : step.isField = false
  binders : ∀ isLocal, step.binders isLocal = if isLocal then [b] else []

theorem Stands.found (stands : place.Stands known path) {next : Step} {b : Binder}
    (finds : Finds next b) {d : Declared} (same : path.isLocal = true → d.Shows known b) :
    (place.add d).Shows known (next :: path) := by
  have around := stands.shows
  have role : place.role = Path.role? (next :: path) := by
    simpa [finds.role] using around.role
  have inClass : place.inClass = Path.inClass (next :: path) := by
    simpa [finds.members] using around.inClass
  have inField : place.inField = Path.inField (next :: path) := by
    simpa [finds.members, finds.field] using around.inField
  have entries := around.entries
  cases stands with
  | outside _ _ _ scopes =>
      simp only [add, scopes]
      refine ⟨role, inClass, inField, ?_⟩
      rw [scopes, Path.binders, finds.binders]
      exact .nil
  | @inside step outer _ _ opens _ _ _ scopes _ _ =>
      have isLocal : Path.isLocal (step :: outer) = true := by rw [Path.isLocal_cons, opens]; rfl
      rw [scopes] at entries
      simp only [add, scopes]
      refine ⟨role, inClass, inField, ?_⟩
      rw [Path.binders, finds.binders, if_pos isLocal]
      exact .cons (same isLocal) entries

section

variable (id : NodeId) (slot : Slot) (name : Token)
  (slotKnown : path.isLocal = true → known id slot)
include slotKnown

theorem Stands.own (stands : place.Stands known path) :
    (place.add ⟨name.lexeme, slot, true⟩).Shows known (.own id name :: path) :=
  stands.found ⟨rfl, rfl, rfl, fun _ => rfl⟩ fun isLocal => ⟨rfl, rfl, slotKnown isLocal⟩

theorem Stands.initializer (stands : place.Stands known path) :
    (place.add ⟨name.lexeme, slot, false⟩).Shows known (.initializer id name :: path) :=
  stands.found ⟨rfl, rfl, rfl, fun _ => rfl⟩ fun isLocal => ⟨rfl, rfl, slotKnown isLocal⟩

theorem Stands.follow {next step : Step} {outer : Path} (pathEq : path = step :: outer)
    (stands : place.Stands known path) (follows : Follows next step [⟨id, name.lexeme, false⟩]) :
    (place.add ⟨name.lexeme, slot, true⟩).Stands known (next :: outer) := by
  subst pathEq
  cases stands with
  | inside opens role inClass inField scopes own others =>
      have isLocal : Path.isLocal (step :: outer) = true := by rw [Path.isLocal_cons, opens]; rfl
      simp only [add, scopes]
      refine .inside (follows.opens.trans opens) ?_ ?_ ?_ rfl ?_ others
      · simpa [follows.role] using role
      · simpa [follows.members] using inClass
      · simpa [follows.members, follows.field] using inField
      · rw [follows.binders opens]
        exact .cons ⟨rfl, rfl, slotKnown isLocal⟩ own

theorem Stands.past (stands : place.Stands known path) {s : Stmt}
    (declares : s.declared = [⟨id, name.lexeme, false⟩]) :
    (place.add ⟨name.lexeme, slot, true⟩).Stands known (path.past s) := by
  cases path with
  | nil =>
      cases stands with
      | outside role inClass inField scopes =>
          simp only [add, scopes]
          exact .outside role inClass inField scopes
  | cons step outer =>
      exact stands.follow id slot name slotKnown rfl (declares ▸ follows_past s step)

end

/-- A declaration is finished. -/
theorem markReady_add (place : Place) (name : String) (slot : Slot)
    (fresh : ∀ scope outer, place.scopes = scope :: outer → ∀ d ∈ scope, d.name ≠ name) :
    (place.add ⟨name, slot, false⟩).markReady name = place.add ⟨name, slot, true⟩ := by
  cases scopes : place.scopes with
  | nil => simp only [add, scopes, markReady]
  | cons scope outer =>
      have kept : scope.map (fun d => if d.name == name then { d with ready := true } else d) =
          scope := by
        conv_rhs => rw [← List.map_id scope]
        refine List.map_congr_left fun d member => ?_
        rw [if_neg]
        · rfl
        · simpa using fresh scope outer scopes d member
      simp only [add, scopes, markReady, List.map_cons, kept, beq_self_eq_true, if_true]

end Place
end Lox
