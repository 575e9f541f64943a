import Lox.Proofs.Chronicle.Changes

set_option autoImplicit false

/-! The members of a class as a declaration makes them: its fields with their first values, and its methods,
each of which is a new function. -/

namespace Lox

variable {known : Site → Prop} {m : Machine}

/-- The names of methods. -/
def Exec.methodNames (decls : List FunctionDecl) : List String :=
  (decls.filterMap (·.name)).map (·.lexeme)

theorem Exec.methodNames_nameless {method : FunctionDecl} (nameless : method.name = none)
    (rest : List FunctionDecl) : methodNames (method :: rest) = methodNames rest := by
  rw [methodNames, List.filterMap_cons_none nameless, methodNames]

theorem Exec.methodNames_named {method : FunctionDecl} {name : Token} (named : method.name = some name)
    (rest : List FunctionDecl) : methodNames (method :: rest) = name.lexeme :: methodNames rest := by
  rw [methodNames, List.filterMap_cons_some named, List.map_cons, methodNames]

/-- What has become of a table of members and of the machine when some methods have been added. -/
structure Exec.AddsMethods (known : Site → Prop) (decls : List FunctionDecl) (m after : Machine)
    (members all : Table String Value) : Prop where
  further : m.Extends after
  others : ∀ name ∉ Exec.methodNames decls, all.get? name = members.get? name
  methods : (Exec.methodNames decls).Nodup → ∀ method ∈ decls, ∀ name,
    method.name = some name → ∃ f, all.get? name.lexeme = some (.function f) ∧
      f < after.functions.size ∧ (after.functionAt f).decl = method
  knows : (∀ name value, members.get? name = some value → m.Knows value) →
    ∀ name value, all.get? name = some value → after.Knows value
  book : ∀ deeds, Chronicle.Book known m deeds →
    Orderly.functions (ClassDecl.Accepted known) decls → Chronicle.Book known after deeds

namespace Exec

namespace AddsMethods

variable {after : Machine} {members all : Table String Value} {method : FunctionDecl}
  {rest : List FunctionDecl}

theorem nil (m : Machine) (members : Table String Value) : AddsMethods known [] m m members members :=
  ⟨.refl m, fun _ _ => rfl, nofun, fun knows => knows, fun _ book _ => book⟩

theorem cons_nameless (adds : AddsMethods known rest m after members all) (nameless : method.name = none) :
    AddsMethods known (method :: rest) m after members all where
  further := adds.further
  others := by
    rw [methodNames_nameless nameless]
    exact adds.others
  methods := by
    rw [methodNames_nameless nameless]
    intro distinct other member name named
    rcases List.mem_cons.mp member with rfl | later
    · rw [nameless] at named
      cases named
    · exact adds.methods distinct other later name named
  knows := adds.knows
  book deeds book orderly := adds.book deeds book orderly.2

/-- A method that has been added, and the methods after it. -/
theorem cons_named {name : Token} {closure : Chain} (named : method.name = some name)
    (adds : AddsMethods known rest (m.addFunction ⟨method, closure, none⟩).2 after
      (members.insert name.lexeme (.function m.functions.size)) all) :
    AddsMethods known (method :: rest) m after members all where
  further := (m.extends_addFunction _).trans adds.further
  others := by
    rw [methodNames_named named]
    intro other outside
    have differs := List.ne_of_not_mem_cons outside
    rw [adds.others other (List.not_mem_of_not_mem_cons outside), Table.get?_insert, if_neg differs.symm]
  methods := by
    rw [methodNames_named named]
    intro distinct other member wanted isNamed
    obtain ⟨fresh, others⟩ := List.nodup_cons.mp distinct
    rcases List.mem_cons.mp member with rfl | later
    · rw [named] at isNamed
      cases isNamed
      have room : m.functions.size < (m.addFunction ⟨other, closure, none⟩).2.functions.size :=
        m.knows_addFunction _
      refine ⟨m.functions.size, ?_, Nat.lt_of_lt_of_le room adds.further.functions, ?_⟩
      · rw [adds.others _ fresh, Table.get?_insert, if_pos rfl]
      · rw [adds.further.functionAt _ room, Machine.functionAt_addFunction, if_pos rfl]
    · exact adds.methods others other later wanted isNamed
  knows := by
    intro known
    refine adds.knows fun other value found => ?_
    rw [Table.get?_insert] at found
    split at found
    · cases found
      exact m.knows_addFunction _
    · exact (known other value found).later (m.extends_addFunction _)
  book deeds book orderly := adds.book deeds (book.addFunction orderly.1 nofun) orderly.2

end AddsMethods

theorem addMethods_ends (known : Site → Prop) (closure : Chain) : ∀ (decls : List FunctionDecl)
    (members : Table String Value) (m : Machine), ∃ all after,
      addMethods closure members decls m = .ok all after ∧ AddsMethods known decls m after members all
  | [], members, m => ⟨members, m, rfl, .nil m members⟩
  | method :: rest, members, m => by
    unfold addMethods
    cases named : method.name with
    | none =>
      obtain ⟨all, after, same, adds⟩ := addMethods_ends known closure rest members m
      exact ⟨all, after, same, adds.cons_nameless named⟩
    | some name =>
      obtain ⟨all, after, same, adds⟩ := addMethods_ends known closure rest
        (members.insert name.lexeme (.function m.functions.size)) (m.addFunction ⟨method, closure, none⟩).2
      exact ⟨all, after, same, .cons_named named adds⟩

end Exec

theorem ClassDecl.memberNames_eq (decl : ClassDecl) :
    decl.memberNames = decl.fields.map (·.name.lexeme) ++ Exec.methodNames decl.methods := by
  rw [memberNames, Resolve.memberNames, List.map_append, List.map_map]
  rfl

/-- The class that a declaration makes bears it. -/
theorem Machine.bears_addClass {after : Machine} {decl : ClassDecl} {values all : Table String Value}
    (adds : Exec.AddsMethods known decl.methods m after values all)
    (filled : ∀ name, (values.get? name).isSome = true ↔ ∃ field ∈ decl.fields, field.name.lexeme = name)
    (distinct : decl.memberNames.Nodup) (slot : Option Slot) :
    (after.addClass ⟨decl.name.lexeme, all, slot⟩).2.Bears after.classes.size decl values slot := by
  have made : (after.addClass ⟨decl.name.lexeme, all, slot⟩).2.classAt after.classes.size =
      ⟨decl.name.lexeme, all, slot⟩ := by
    rw [Machine.classAt_addClass, if_pos rfl]
  rw [ClassDecl.memberNames_eq] at distinct
  obtain ⟨-, methods, disjoint⟩ := List.nodup_append.mp distinct
  refine ⟨?_, fun field member => ?_, fun method member name named => ?_, fun name outside => ?_⟩
  · rw [made]
  · obtain ⟨value, found⟩ := Option.isSome_iff_exists.mp ((filled _).mpr ⟨field, member, rfl⟩)
    refine ⟨value, found, ?_⟩
    rw [made, ← found]
    exact adds.others _ fun isMethod => disjoint _ (List.mem_map.mpr ⟨field, member, rfl⟩) _ isMethod rfl
  · rw [made]
    exact adds.methods methods method member name named
  · rw [ClassDecl.memberNames_eq, List.mem_append, not_or] at outside
    rw [made]
    refine (adds.others name outside.2).trans (Option.not_isSome_iff_eq_none.mp fun isSome => ?_)
    obtain ⟨field, member, same⟩ := (filled name).mp isSome
    exact outside.1 (List.mem_map.mpr ⟨field, member, same⟩)

end Lox
