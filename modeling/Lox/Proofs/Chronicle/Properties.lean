import Lox.Proofs.Chronicle.Session

set_option autoImplicit false

/-! What a property is that has been declared as a field. Until it is set on an instance it is the value that
its initializer produced, for all instances of the class; from then on it is what it was set to last, for
this instance alone. -/

namespace Lox

/-! ### First values -/

namespace Exec

variable {ctx : Context}

theorem fields_append (done rest : List FieldDecl) (members : Table String Value) :
    fields ctx members (done ++ rest) = (do fields ctx (← fields ctx members done) rest) := by
  induction done generalizing members with
  | nil => rfl
  | cons field more ih =>
    obtain ⟨name, initial⟩ := field
    cases initial with
    | none => exact ih _
    | some e =>
      rw [List.cons_append, fields, fields, bind_assoc]
      exact congrArg _ (funext fun value => ih _)

/-- Fields change no member that they do not name. -/
theorem get?_fields {name : String} : ∀ (decls : List FieldDecl) (members values : Table String Value)
    (m last : Machine), fields ctx members decls m = .ok values last →
      (∀ field ∈ decls, field.name.lexeme ≠ name) → values.get? name = members.get? name
  | [], members, values, m, last, done, _ => by
    cases done
    rfl
  | .mk own none :: rest, members, values, m, last, done, others => by
    obtain ⟨differs, more⟩ := List.forall_mem_cons.mp others
    rw [get?_fields rest _ values m last done more]
    exact (Table.get?_insert ..).trans (if_neg differs)
  | .mk own (some initial) :: rest, members, values, m, last, done, others => by
    obtain ⟨differs, more⟩ := List.forall_mem_cons.mp others
    obtain ⟨value, middle, -, after⟩ := Outcome.ok_of_bind done
    rw [get?_fields rest _ values middle last after more]
    exact (Table.get?_insert ..).trans (if_neg differs)

/-- What it means that a field got a value: its initializer produced the value after the fields before it
had got theirs, or it has none and the value is `nil`. -/
def Produces (ctx : Context) (done : List FieldDecl) (initial : Option Expr) (m : Machine) (value : Value) :
    Prop :=
  ∃ earlier middle, fields ctx Table.empty done m = .ok earlier middle ∧
    (initial = none → value = .nil) ∧ ∀ e, initial = some e → ∃ after, expr ctx e middle = .ok value after

/-- Each field has the value that its initializer has produced. -/
theorem produces_of_fields {decls done rest : List FieldDecl} {name : Token} {initial : Option Expr}
    {m last : Machine} {values : Table String Value} (ran : fields ctx Table.empty decls m = .ok values last)
    (split : decls = done ++ .mk name initial :: rest)
    (distinct : (decls.map (·.name.lexeme)).Nodup) :
    ∃ value, values.get? name.lexeme = some value ∧ Produces ctx done initial m value := by
  subst split
  -- What a field is given lasts, because no field after it has its name.
  have fresh : ∀ field ∈ rest, field.name.lexeme ≠ name.lexeme := by
    rw [List.map_append, List.map_cons] at distinct
    have own := (List.nodup_cons.mp (List.nodup_append.mp distinct).2.1).1
    exact fun field member same => own (List.mem_map.mpr ⟨field, member, same⟩)
  rw [fields_append] at ran
  obtain ⟨earlier, middle, before, after⟩ := Outcome.ok_of_bind ran
  cases initial with
  | none =>
    refine ⟨.nil, ?_, earlier, middle, before, fun _ => rfl, nofun⟩
    rw [get?_fields rest _ values middle last after fresh, Table.get?_insert, if_pos rfl]
  | some e =>
    obtain ⟨value, next, produced, others⟩ := Outcome.ok_of_bind after
    refine ⟨value, ?_, earlier, middle, before, nofun, fun _ same => ⟨next, Option.some.inj same ▸ produced⟩⟩
    rw [get?_fields rest _ values next last others fresh, Table.get?_insert, if_pos rfl]

end Exec

/-- No two fields of a class that has been accepted have one name. -/
theorem ClassDecl.fields_distinct (decl : ClassDecl) (distinct : decl.memberNames.Nodup) :
    (decl.fields.map (·.name.lexeme)).Nodup := by
  rw [memberNames, Resolve.memberNames, List.map_append, List.map_map] at distinct
  exact (List.nodup_append.mp distinct).1

namespace Chronicle

variable {known : Site → Prop} {m : Machine} {deeds : List Deed} {id : InstanceId} {name : String}

theorem Truthful.read {later earlier : List Deed} {before : Machine} (truthful : Truthful known deeds)
    (split : deeds = later ++ .read before id name :: earlier) :
    Book known before earlier ∧ before.Knows (.instance id) := by
  subst split
  exact truthful.suffix.1

theorem Truthful.made {later earlier : List Deed} {before : Machine} {id : ClassId} {decl : ClassDecl}
    {values : Table String Value} {slot : Option Slot} (truthful : Truthful known deeds)
    (split : deeds = later ++ .made before id decl values slot :: earlier) :
    Evaluates before decl values slot := by
  subst split
  exact truthful.suffix.1

namespace Book

variable (book : Book known m deeds)
include book

/-- Each instance was born in a class that some declaration had made. -/
theorem origin (room : m.Knows (.instance id)) : ∃ owner before decl values slot,
    .born id owner ∈ deeds ∧ .made before owner decl values slot ∈ deeds := by
  have born := book.instances id room
  obtain ⟨-, -, known⟩ := book.born id _ born
  obtain ⟨before, decl, values, slot, made⟩ := book.classes _ known
  exact ⟨_, before, decl, values, slot, born, made⟩

/-- A property that has been set is what it was set to last. -/
theorem getProperty_of_set {value : Value} (set : lastSet? deeds id name = some value) :
    m.getProperty id name = (some value, m) := by
  have own := book.properties id name
  rw [set] at own
  unfold Machine.getProperty
  simp only [own]

/-- A property that has not been set is the first value of the field, unless this is a function. -/
theorem getProperty_of_unset {before : Machine} {owner : ClassId} {decl : ClassDecl}
    {values : Table String Value} {slot : Option Slot} (born : .born id owner ∈ deeds)
    (made : .made before owner decl values slot ∈ deeds) (unset : lastSet? deeds id name = none)
    {field : FieldDecl} (declared : field ∈ decl.fields) (named : field.name.lexeme = name) :
    ∃ value own, values.get? name = some value ∧ slot = some own ∧
      ((∀ f, value ≠ .function f) → m.getProperty id name = (some value, m)) ∧
      ∀ f, value = .function f → m.getProperty id name =
        (some (.function (m.bindFunction f id own).1), (m.bindFunction f id own).2) := by
  obtain ⟨-, ownerOf, -⟩ := book.born id owner born
  obtain ⟨-, -, -, isSome, bears⟩ := book.made before owner decl values slot made
  obtain ⟨own, rfl⟩ := Option.isSome_iff_exists.mp isSome
  obtain ⟨value, first, member⟩ := bears.field field declared
  rw [named] at first member
  have none := book.properties id name
  rw [unset] at none
  refine ⟨value, own, first, rfl, fun plain => ?_, fun f same => ?_⟩
  · unfold Machine.getProperty
    simp only [none, ownerOf, member, bears.slot]
    cases value with
    | function f => exact absurd rfl (plain f)
    | _ => rfl
  · subst same
    unfold Machine.getProperty
    simp only [none, ownerOf, member, bears.slot]

end Book
end Chronicle

open Chronicle

/-- What has happened in a session, and in a run after it, decides what properties are. The run ends on the
machine of the chronicle. Each class got as first values of its fields what their initializers produced,
in order. A property that is read of an instance is what was written last to it on this instance; if
nothing was, and it is a field that the class of the instance declares, it is the first value of this
field, unless this is a function: then it is a new function, which is this one bound to the instance. -/
theorem properties_keep_their_values {s : Session} {deeds : List Deed} (chronicled : s.Chronicled deeds)
    (bound : Nat) (source : String) :
    let c := s.chronicle deeds bound source
    (∀ exit after, s.run bound source = some (exit, after) → after.machine = c.machine) ∧
    (∀ later before id decl values slot earlier,
      c.deeds = later ++ .made before id decl values slot :: earlier →
        ∃ ctx : Context, ctx.Genuine ∧ ∀ done name initial rest,
          decl.fields = done ++ .mk name initial :: rest →
            ∃ value, values.get? name.lexeme = some value ∧ Exec.Produces ctx done initial before value) ∧
    ∀ later before id name earlier, c.deeds = later ++ .read before id name :: earlier →
      (∃ owner origin decl values slot,
        .born id owner ∈ earlier ∧ .made origin owner decl values slot ∈ earlier) ∧
      (∀ value, lastSet? earlier id name = some value → before.getProperty id name = (some value, before)) ∧
      (lastSet? earlier id name = none → ∀ owner origin decl values slot,
        .born id owner ∈ earlier → .made origin owner decl values slot ∈ earlier →
          ∀ field ∈ decl.fields, field.name.lexeme = name →
            ∃ value own, values.get? name = some value ∧ slot = some own ∧
              ((∀ f, value ≠ .function f) → before.getProperty id name = (some value, before)) ∧
              ∀ f, value = .function f → before.getProperty id name =
                (some (.function (before.bindFunction f id own).1), (before.bindFunction f id own).2)) := by
  intro c
  obtain ⟨sites, sound, tells⟩ := chronicled.tells
  obtain ⟨book, truthful⟩ := (Session.chronicle_tells sound tells bound source).1
  refine ⟨fun exit after ran => Session.chronicle_of_run sound tells ran, ?_, ?_⟩
  · intro later before id decl values slot earlier split
    obtain ⟨ctx, last, genuine, -, ran⟩ := truthful.made split
    obtain ⟨-, -, distinct, -⟩ := book.made before id decl values slot
      (split ▸ List.mem_append_right later List.mem_cons_self)
    have distinct := decl.fields_distinct distinct
    exact ⟨ctx, genuine, fun done name initial rest parts => Exec.produces_of_fields ran parts distinct⟩
  · intro later before id name earlier split
    obtain ⟨book, room⟩ := truthful.read split
    refine ⟨book.origin room, fun value set => book.getProperty_of_set set, fun unset owner origin decl values
      slot born made field declared named => ?_⟩
    exact book.getProperty_of_unset born made unset declared named

/-- A field that is set through an alias of an instance, and read of this instance afterwards. -/
theorem properties_keep_their_values_through_aliases :
    let start := Session.new {} .unlimited .unlimited
    let source :=
      "class A { x = false; } var a = A(); var b = a; var c = A(); b.x = true; print c.x; print a.x;"
    let c := start.chronicle [] 16 source
    c.machine.output.accepted = "false\ntrue\n".toUTF8 ∧
    ∃ before earlier value, c.deeds = .read before 0 "x" :: earlier ∧ lastSet? earlier 0 "x" = some value ∧
      value.isTruthy = true ∧ before.getProperty 0 "x" = (some value, before) := by
  intro start source c
  obtain ⟨printed, reads, sets⟩ : c.machine.output.accepted = "false\ntrue\n".toUTF8 ∧
      (c.deeds.head?.bind Deed.read?).map (·.2) = some (0, "x") ∧
        (lastSet? c.deeds.tail 0 "x").any Value.isTruthy = true := by decide +kernel
  obtain ⟨⟨before, id, name⟩, found, same⟩ := Option.map_eq_some_iff.mp reads
  obtain ⟨rfl, rfl⟩ := Prod.mk.inj same
  obtain ⟨deed, first, isRead⟩ := Option.bind_eq_some_iff.mp found
  obtain ⟨value, set, truthy⟩ := (Option.any_eq_true _ _).mp sets
  obtain rfl := Deed.eq_read isRead
  have deeds : c.deeds = .read before 0 "x" :: c.deeds.tail := List.eq_cons_of_mem_head? first
  have kept := properties_keep_their_values (.new {} .unlimited .unlimited) 16 source
  have latest := (kept.2.2 [] before 0 "x" c.deeds.tail deeds).2.1 value set
  exact ⟨printed, before, c.deeds.tail, value, deeds, set, truthy, latest⟩

end Lox
