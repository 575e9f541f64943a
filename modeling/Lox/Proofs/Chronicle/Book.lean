import Lox.Proofs.Chronicle.Interpreter
import Lox.Proofs.Grammar.Orderly
import Lox.Proofs.Machine.Sound
import Lox.Proofs.Tandem.Agreement

set_option autoImplicit false

/-! What a chronicle says of its machine. Global variables and the own properties of instances have the values
that were written last; each class is the one that some declaration made, and each instance has the class
that it was born in. -/

namespace Lox

/-- A class whose declaration has been accepted, together with the sites of its code. -/
def ClassDecl.Accepted (known : Site → Prop) (decl : ClassDecl) : Prop :=
  decl.TellsInitializer ∧ ∃ path, ∀ site ∈ Sites.stmt path decl.statement, known site

namespace ClassDecl

variable {known more : Site → Prop} {bindings : Bindings} {decl : ClassDecl}

/-- The names of the members of a class. -/
def memberNames (decl : ClassDecl) : List String :=
  (Resolve.memberNames decl.fields decl.methods).map (·.lexeme)

theorem Accepted.mono (accepted : decl.Accepted known) (wider : ∀ site, known site → more site) :
    decl.Accepted more := by
  obtain ⟨tells, path, sites⟩ := accepted
  exact ⟨tells, path, fun site member => wider site (sites site member)⟩

theorem Accepted.slot (accepted : decl.Accepted known) (vouched : Vouched known bindings) :
    ∃ slot, bindings.slot? decl.thisId = some slot := by
  obtain ⟨-, path, sites⟩ := accepted
  have receives : ⟨.members decl.thisId :: .own decl.id decl.name :: path, .receiver decl.thisId⟩ ∈
      Sites.stmt path decl.statement :=
    List.mem_cons_of_mem _ (List.mem_append_right _ List.mem_cons_self)
  exact Option.isSome_iff_exists.mp (vouched.bound _ (sites _ receives))

theorem nodup_of_members (path : Path) (names : List Token) : ∀ earlier : List String,
    (∀ site ∈ Sites.members path earlier names, ∀ e, ¬Offends site e) →
      (names.map (·.lexeme)).Nodup ∧ ∀ name ∈ names, name.lexeme ∉ earlier := by
  induction names with
  | nil => exact fun _ _ => ⟨List.nodup_nil, nofun⟩
  | cons name rest ih =>
    intro earlier clean
    obtain ⟨own, others⟩ := List.forall_mem_cons.mp clean
    obtain ⟨distinct, fresh⟩ := ih (name.lexeme :: earlier) others
    refine ⟨List.nodup_cons.mpr ⟨fun repeated => ?_, distinct⟩, List.forall_mem_cons.mpr ⟨?_, ?_⟩⟩
    · obtain ⟨other, member, same⟩ := List.mem_map.mp repeated
      exact fresh other member (same ▸ List.mem_cons_self)
    · exact fun repeated => own _ (.memberDeclaredTwice repeated)
    · exact fun other member repeated => fresh other member (List.mem_cons_of_mem _ repeated)

/-- No two members of a class that has been accepted have one name. -/
theorem Accepted.distinct (accepted : decl.Accepted known) (vouched : Vouched known bindings) :
    decl.memberNames.Nodup := by
  obtain ⟨-, path, sites⟩ := accepted
  refine (nodup_of_members (.own decl.id decl.name :: path) _ [] fun site member => ?_).1
  exact vouched.clean site
    (sites site (List.mem_cons_of_mem _ (List.mem_append_left _ member)))

end ClassDecl

/-! ### Objects that there are -/

namespace Machine

/-- If a value names an object, there is one. -/
def Knows (m : Machine) : Value → Prop
  | .function id => id < m.functions.size
  | .class id => id < m.classes.size
  | .instance id => id < m.instances.size
  | _ => True

/-- The values that variables, members and properties have, and the instances that functions are bound to. -/
inductive Holds (m : Machine) : Value → Prop
  | cell {id : FrameId} {slot : Slot} {value : Value}
      (found : (m.environment.frame id).get? slot = some value) : Holds m value
  | global {name : String} {value : Value} (found : m.environment.globals.get? name = some value) :
      Holds m value
  | member {id : ClassId} {name : String} {value : Value}
      (found : (m.classAt id).members.get? name = some value) : Holds m value
  | property {id : InstanceId} {name : String} {value : Value}
      (found : (m.instanceAt id).fields.get? name = some value) : Holds m value
  | receiver {id : FunctionId} {receiver : InstanceId}
      (bound : (m.functionAt id).receiver = some receiver) : Holds m (.instance receiver)

/-- Whatever is held names objects that there are. -/
structure Closed (m : Machine) : Prop where
  cells : ∀ id slot value, (m.environment.frame id).get? slot = some value → m.Knows value
  globals : ∀ name value, m.environment.globals.get? name = some value → m.Knows value
  members : ∀ id name value, (m.classAt id).members.get? name = some value → m.Knows value
  properties : ∀ id name value, (m.instanceAt id).fields.get? name = some value → m.Knows value
  receivers : ∀ id receiver, (m.functionAt id).receiver = some receiver → m.Knows (.instance receiver)

theorem Closed.knows {m : Machine} (closed : m.Closed) {value : Value} (holds : m.Holds value) :
    m.Knows value := by
  cases holds with
  | cell found => exact closed.cells _ _ _ found
  | global found => exact closed.globals _ _ found
  | member found => exact closed.members _ _ _ found
  | property found => exact closed.properties _ _ _ found
  | receiver bound => exact closed.receivers _ _ bound

/-- Functions, classes and the classes of instances are kept. -/
structure Extends (m after : Machine) : Prop where
  functions : m.functions.size ≤ after.functions.size
  functionAt : ∀ id, id < m.functions.size → after.functionAt id = m.functionAt id
  classes : m.classes.size ≤ after.classes.size
  classAt : ∀ id, id < m.classes.size → after.classAt id = m.classAt id
  instances : m.instances.size ≤ after.instances.size
  owner : ∀ id, id < m.instances.size → (after.instanceAt id).owner = (m.instanceAt id).owner

theorem Extends.refl (m : Machine) : m.Extends m :=
  ⟨Nat.le_refl _, fun _ _ => rfl, Nat.le_refl _, fun _ _ => rfl, Nat.le_refl _, fun _ _ => rfl⟩

theorem Extends.trans {first second third : Machine} (one : first.Extends second)
    (two : second.Extends third) : first.Extends third where
  functions := Nat.le_trans one.functions two.functions
  functionAt id small := (two.functionAt id (Nat.lt_of_lt_of_le small one.functions)).trans
    (one.functionAt id small)
  classes := Nat.le_trans one.classes two.classes
  classAt id small := (two.classAt id (Nat.lt_of_lt_of_le small one.classes)).trans (one.classAt id small)
  instances := Nat.le_trans one.instances two.instances
  owner id small := (two.owner id (Nat.lt_of_lt_of_le small one.instances)).trans (one.owner id small)

theorem Knows.later {m after : Machine} {value : Value} (knows : m.Knows value)
    (further : m.Extends after) : after.Knows value := by
  cases value with
  | function id => exact Nat.lt_of_lt_of_le knows further.functions
  | «class» id => exact Nat.lt_of_lt_of_le knows further.classes
  | «instance» id => exact Nat.lt_of_lt_of_le knows further.instances
  | _ => trivial

theorem knows_data {m : Machine} {value : Value} (data : value.IsData) : m.Knows value := by
  cases value <;> trivial

/-- A class as a declaration has made it. Its members are its fields, with their first values, and its
methods. -/
structure Bears (m : Machine) (id : ClassId) (decl : ClassDecl) (values : Table String Value)
    (slot : Option Slot) : Prop where
  slot : (m.classAt id).thisSlot = slot
  field : ∀ field ∈ decl.fields, ∃ value, values.get? field.name.lexeme = some value ∧
    (m.classAt id).members.get? field.name.lexeme = some value
  method : ∀ method ∈ decl.methods, ∀ name, method.name = some name →
    ∃ f, (m.classAt id).members.get? name.lexeme = some (.function f) ∧
      f < m.functions.size ∧ (m.functionAt f).decl = method
  only : ∀ name ∉ decl.memberNames, (m.classAt id).members.get? name = none

theorem Bears.later {m after : Machine} {id : ClassId} {decl : ClassDecl} {values : Table String Value}
    {slot : Option Slot} (bears : m.Bears id decl values slot) (small : id < m.classes.size)
    (further : m.Extends after) : after.Bears id decl values slot := by
  have same := further.classAt id small
  refine ⟨same ▸ bears.slot, same ▸ bears.field, fun method member name named => ?_, same ▸ bears.only⟩
  obtain ⟨f, found, room, kept⟩ := bears.method method member name named
  exact ⟨f, same ▸ found, Nat.lt_of_lt_of_le room further.functions,
    (further.functionAt f room) ▸ kept⟩

end Machine

/-- How programs are run. -/
def Context.Genuine (ctx : Context) : Prop :=
  ∃ bindings maxDepth bound, ctx = Exec.context bindings maxDepth bound

/-! ### The book -/

namespace Chronicle

variable {known more : Site → Prop} {m : Machine} {deeds : List Deed}

/-- What is noted agrees with the machine. -/
structure Book (known : Site → Prop) (m : Machine) (deeds : List Deed) : Prop where
  closed : m.Closed
  orderly : ∀ id, Orderly.function (ClassDecl.Accepted known) (m.functionAt id).decl
  classes : ∀ id, id < m.classes.size → ∃ before decl values slot, .made before id decl values slot ∈ deeds
  made : ∀ before id decl values slot, .made before id decl values slot ∈ deeds → id < m.classes.size ∧
    decl.Accepted known ∧ decl.memberNames.Nodup ∧ slot.isSome = true ∧ m.Bears id decl values slot
  instances : ∀ id, id < m.instances.size → .born id (m.instanceAt id).owner ∈ deeds
  born : ∀ id owner, .born id owner ∈ deeds →
    id < m.instances.size ∧ (m.instanceAt id).owner = owner ∧ owner < m.classes.size
  properties : ∀ id name, (m.instanceAt id).fields.get? name = lastSet? deeds id name
  globals : ∀ name, m.environment.globals.get? name = lastWritten? deeds name

/-- Some values are those that the fields of a declaration have been given, one after the other, from some
machine on. -/
def Evaluates (before : Machine) (decl : ClassDecl) (values : Table String Value) (slot : Option Slot) :
    Prop :=
  ∃ (ctx : Context) (after : Machine), ctx.Genuine ∧ ctx.bindings.slot? decl.thisId = slot ∧
    Exec.fields ctx Table.empty decl.fields before = .ok values after

/-- Each class got the first values to which its fields were evaluated, and each read and each call of a class
happened on a machine about which the deeds before it agree. -/
def Truthful (known : Site → Prop) : List Deed → Prop
  | [] => True
  | .made before _ decl values slot :: earlier => Evaluates before decl values slot ∧ Truthful known earlier
  | .read before id _ :: earlier =>
    (Book known before earlier ∧ before.Knows (.instance id)) ∧ Truthful known earlier
  | .called before id arguments _ :: earlier =>
    (Book known before earlier ∧ before.Knows (.class id) ∧ ∀ value ∈ arguments, before.Knows value) ∧
      Truthful known earlier
  | _ :: earlier => Truthful known earlier

theorem Truthful.tail {deed : Deed} (truthful : Truthful known (deed :: deeds)) :
    Truthful known deeds := by
  cases deed with
  | made => exact truthful.2
  | read => exact truthful.2
  | called => exact truthful.2
  | _ => exact truthful

theorem Truthful.suffix {later earlier : List Deed} (truthful : Truthful known (later ++ earlier)) :
    Truthful known earlier := by
  induction later with
  | nil => exact truthful
  | cons deed rest ih => exact ih truthful.tail

theorem Book.mono (book : Book known m deeds) (wider : ∀ site, known site → more site) :
    Book more m deeds :=
  { book with
    orderly := fun id => Orderly.function_mono (fun _ accepted => accepted.mono wider) (book.orderly id)
    made := fun before id decl values slot member =>
      have ⟨small, accepted, rest⟩ := book.made before id decl values slot member
      ⟨small, accepted.mono wider, rest⟩ }

theorem Truthful.mono (truthful : Truthful known deeds) (wider : ∀ site, known site → more site) :
    Truthful more deeds := by
  induction deeds with
  | nil => trivial
  | cons deed earlier ih =>
    cases deed with
    | made => exact ⟨truthful.1, ih truthful.2⟩
    | read => exact ⟨⟨truthful.1.1.mono wider, truthful.1.2⟩, ih truthful.2⟩
    | called => exact ⟨⟨truthful.1.1.mono wider, truthful.1.2⟩, ih truthful.2⟩
    | _ => exact ih truthful

theorem lastWritten?_append (later earlier : List Deed) (name : String) :
    lastWritten? (later ++ earlier) name = (lastWritten? later name).or (lastWritten? earlier name) :=
  List.findSome?_append

end Chronicle
end Lox
