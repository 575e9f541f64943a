import Lox.Proofs.Chronicle.Session
import Lox.Proofs.Machine.Cells

set_option autoImplicit false

/-! How the instances of a class come to be. A call of a class makes an instance that has not been there, and
runs the initializer that the class declares, if it declares one, on this instance. -/

namespace Lox

namespace ClassDecl

/-- The method that sets up new instances, if the class declares one. -/
def init? (decl : ClassDecl) : Option FunctionDecl :=
  decl.methods.find? fun method => method.name.map (·.lexeme) == some "init"

/-- How many arguments a call of the class takes. -/
def demands (decl : ClassDecl) : Nat :=
  (decl.init?.map (·.params.length)).getD 0

variable {decl : ClassDecl} {method : FunctionDecl}

theorem mem_of_init? (declared : decl.init? = some method) :
    method ∈ decl.methods ∧ ∃ name, method.name = some name ∧ name.lexeme = "init" := by
  have named : (method.name.map (·.lexeme) == some "init") = true :=
    List.find?_some (p := fun method : FunctionDecl => method.name.map (·.lexeme) == some "init") declared
  exact ⟨List.mem_of_find?_eq_some declared, Option.map_eq_some_iff.mp (eq_of_beq named)⟩

/-- A class that declares no initializer may have a field of this name. -/
theorem field_of_init?_eq_none (undeclared : decl.init? = none) (named : "init" ∈ decl.memberNames) :
    ∃ field ∈ decl.fields, field.name.lexeme = "init" := by
  rw [memberNames_eq, List.mem_append] at named
  rcases named with ofField | ofMethod
  · exact List.mem_map.mp ofField
  · obtain ⟨name, member, same⟩ := List.mem_map.mp ofMethod
    obtain ⟨method, declared, own⟩ := List.mem_filterMap.mp member
    refine absurd ?_ (List.find?_eq_none.mp undeclared method declared)
    rw [own, Option.map_some, same]
    exact beq_self_eq_true _

end ClassDecl

namespace Machine

variable {m : Machine} {id : ClassId} {decl : ClassDecl} {method : FunctionDecl}
  {values : Table String Value} {slot : Option Slot}

/-- The initializer of a class is the one that it declares. -/
theorem Bears.initializer?_of_declared (bears : m.Bears id decl values slot) (tells : decl.TellsInitializer)
    (declared : decl.init? = some method) :
    ∃ f, m.initializer? (m.classAt id) = some f ∧ (m.functionAt f).decl = method := by
  obtain ⟨member, name, named, isInit⟩ := ClassDecl.mem_of_init? declared
  obtain ⟨f, found, -, same⟩ := bears.method method member name named
  obtain ⟨other, alsoNamed, kind⟩ := tells method member
  obtain rfl : name = other := Option.some.inj (named.symm.trans alsoNamed)
  have isInitializer : (m.functionAt f).isInitializer = true := by
    rw [FunctionObject.isInitializer, same, kind.mpr isInit]
    rfl
  rw [isInit] at found
  refine ⟨f, ?_, same⟩
  unfold initializer?
  simp only [found, isInitializer, if_pos]

/-- A class that declares no initializer has none, unless it gives a field the initializer of another
instance. -/
theorem Bears.initializer?_of_undeclared (bears : m.Bears id decl values slot)
    (undeclared : decl.init? = none)
    (plain : ∀ f, values.get? "init" = some (.function f) → (m.functionAt f).isInitializer = false) :
    m.initializer? (m.classAt id) = none := by
  unfold initializer?
  by_cases named : "init" ∈ decl.memberNames
  · -- No method has the name, so the member is a field: its first value is what decides.
    obtain ⟨field, declared, same⟩ := ClassDecl.field_of_init?_eq_none undeclared named
    obtain ⟨value, first, found⟩ := bears.field field declared
    rw [same] at first found
    rw [found]
    cases value with
    | function f => exact if_neg (by rw [plain f first]; exact Bool.false_ne_true)
    | _ => rfl
  · rw [bears.only "init" named]

theorem Bears.arityOfClass (bears : m.Bears id decl values slot) (tells : decl.TellsInitializer)
    (plain : ∀ f, values.get? "init" = some (.function f) → (m.functionAt f).isInitializer = false) :
    m.arityOfClass (m.classAt id) = decl.demands := by
  unfold Machine.arityOfClass ClassDecl.demands
  cases declared : decl.init? with
  | none =>
    rw [bears.initializer?_of_undeclared declared plain]
    rfl
  | some method =>
    obtain ⟨f, found, same⟩ := bears.initializer?_of_declared tells declared
    rw [found]
    exact congrArg (·.params.length) same

/-- A machine that is ready to set up a new instance of a class: a function is there that is the given method,
bound to this instance. -/
structure Readies (m : Machine) (id : ClassId) (method : FunctionDecl) (own : Slot) (f : FunctionId)
    (ready : Machine) : Prop where
  instances : ready.instances = m.instances.push ⟨id, Table.empty⟩
  decl : (ready.functionAt f).decl = method
  receiver : (ready.functionAt f).receiver = some m.instances.size
  this : ready.environment.read? (ready.functionAt f).closure own = some (.instance m.instances.size)

theorem readies_bindFunction (m : Machine) (id : ClassId) (f : FunctionId) (own : Slot) :
    let bound := (m.addInstance id).2.bindFunction f m.instances.size own
    m.Readies id (m.functionAt f).decl own bound.1 bound.2 := by
  intro bound
  have made := (m.addInstance id).2.functionAt_bindFunction f m.instances.size own
  refine ⟨rfl, congrArg (·.decl) made, congrArg (·.receiver) made, ?_⟩
  have here : bound.2.environment.frame m.environment.frames.size =
      Environment.cell own (.instance m.instances.size) :=
    Environment.frame_push .. |>.trans (if_pos rfl)
  rw [congrArg (·.closure) made]
  change List.findSome? _ (m.environment.frames.size :: (m.functionAt f).closure.frames) = _
  rw [List.findSome?_cons, here, Environment.cell, Table.get?_insert, if_pos rfl]

end Machine

namespace Exec

variable {ctx : Context} {m : Machine} {id : ClassId} {arguments : List Value} {paren : Token}

theorem construct_of_other_count (differs : m.arityOfClass (m.classAt id) ≠ arguments.length) :
    construct ctx id arguments paren m =
      .error (.error (.faulted (.arity (m.arityOfClass (m.classAt id)) arguments.length) paren)) m := by
  have fails : checkArity (m.arityOfClass (m.classAt id)) arguments.length paren m =
      .error (.error (.faulted (.arity (m.arityOfClass (m.classAt id)) arguments.length) paren)) m := by
    unfold checkArity
    rw [if_neg differs]
    rfl
  change (checkArity _ _ paren >>= _) m = _
  exact Outcome.bind_of_error fails

theorem construct_of_count (same : m.arityOfClass (m.classAt id) = arguments.length) :
    construct ctx id arguments paren m =
      (match m.initializer? (m.classAt id), (m.classAt id).thisSlot with
        | some f, some slot => do
          let bound ← modifyGet (·.bindFunction f m.instances.size slot)
          let _ ← callFunction ctx bound arguments paren
          return .instance m.instances.size
        | _, _ => return .instance m.instances.size : Exec Value) (m.addInstance id).2 := by
  have passes : checkArity (m.arityOfClass (m.classAt id)) arguments.length paren m = .ok () m := by
    unfold checkArity
    rw [if_pos same]
    rfl
  change (checkArity _ _ paren >>= _) m = _
  exact Outcome.bind_of_ok passes

/-- A class without an initializer makes an instance, and that is all. -/
theorem construct_of_none (missing : m.initializer? (m.classAt id) = none) (same : arguments.length = 0) :
    construct ctx id arguments paren m = .ok (.instance m.instances.size) (m.addInstance id).2 := by
  have takes : m.arityOfClass (m.classAt id) = arguments.length := by
    rw [Machine.arityOfClass, missing, same]
  rw [construct_of_count takes, missing]
  rfl

/-- A class with an initializer makes an instance, and the initializer is called on it once. -/
theorem construct_of_some {f : FunctionId} {own : Slot} (found : m.initializer? (m.classAt id) = some f)
    (slot : (m.classAt id).thisSlot = some own)
    (same : m.arityOfClass (m.classAt id) = arguments.length) :
    let ready := (m.addInstance id).2.bindFunction f m.instances.size own
    construct ctx id arguments paren m = (do
      let _ ← callFunction ctx ready.1 arguments paren
      return Value.instance m.instances.size) ready.2 := by
  intro ready
  rw [construct_of_count same, found, slot]
  rfl

end Exec

open Chronicle

theorem Chronicle.Truthful.called {known : Site → Prop} {deeds later earlier : List Deed} {before : Machine}
    {id : ClassId} {arguments : List Value} {paren : Token} (truthful : Truthful known deeds)
    (split : deeds = later ++ .called before id arguments paren :: earlier) :
    Book known before earlier ∧ before.Knows (.class id) ∧ ∀ value ∈ arguments, before.Knows value := by
  subst split
  exact truthful.suffix.1

/-- Whenever a class is called in a session, the instance that the call makes has not been there before: no
value that there is names it. The class was made by a declaration. Unless a field `init` of this class has
the initializer of another instance as its first value, the call demands as many arguments as the method
`init` that is declared takes, or none if none is declared, and is refused on the machine as it is if
there are more or fewer. If no such method is declared, the new instance is the result and nothing
else has happened, however functions are called. If one is, it is called once, with these arguments, bound
to the new instance, which is what `this` reads as in its closure; then the result is the new instance. -/
theorem classes_run_their_initializers {s : Session} {deeds : List Deed} (chronicled : s.Chronicled deeds)
    (bound : Nat) (source : String) :
    let c := s.chronicle deeds bound source
    (∀ exit after, s.run bound source = some (exit, after) → after.machine = c.machine) ∧
    ∀ later before id arguments paren earlier,
      c.deeds = later ++ .called before id arguments paren :: earlier →
      let fresh := Value.instance before.instances.size
      (∀ value, before.Knows value ∨ before.Holds value ∨ value ∈ arguments → value ≠ fresh) ∧
      (∃ origin decl values slot, .made origin id decl values slot ∈ earlier) ∧
      ∀ origin decl values slot, .made origin id decl values slot ∈ earlier →
        (∀ f, values.get? "init" = some (.function f) → (before.functionAt f).isInitializer = false) →
        (decl.demands ≠ arguments.length → ∀ ctx, Exec.construct ctx id arguments paren before =
          .error (.error (.faulted (.arity decl.demands arguments.length) paren)) before) ∧
        (decl.demands = arguments.length → decl.init? = none → ∀ ctx,
          Exec.construct ctx id arguments paren before = .ok fresh (before.addInstance id).2) ∧
        (decl.demands = arguments.length → ∀ method, decl.init? = some method →
          ∃ own f ready, slot = some own ∧ before.Readies id method own f ready ∧
            ∀ ctx, Exec.construct ctx id arguments paren before = (do
              let _ ← Exec.callFunction ctx f arguments paren
              return fresh) ready) := by
  intro c
  obtain ⟨sites, sound, tells⟩ := chronicled.tells
  obtain ⟨-, truthful⟩ := (Session.chronicle_tells sound tells bound source).1
  refine ⟨fun exit after ran => Session.chronicle_of_run sound tells ran, ?_⟩
  intro later before id arguments paren earlier split fresh
  obtain ⟨book, room, known⟩ := truthful.called split
  -- Instances are numbered in order, so nothing there is can name the one that is made next.
  have unknown : ¬before.Knows fresh := Nat.lt_irrefl _
  refine ⟨?_, book.classes id room, fun origin decl values slot made plain => ?_⟩
  · rintro value (knows | holds | argument) rfl
    · exact unknown knows
    · exact unknown (book.closed.knows holds)
    · exact unknown (known _ argument)
  · obtain ⟨-, accepted, -, isSome, bears⟩ := book.made origin id decl values slot made
    have arity := bears.arityOfClass accepted.1 plain
    refine ⟨fun differs ctx => ?_, fun same declared ctx => ?_, fun same method declared => ?_⟩
    · rw [← arity] at differs ⊢
      exact Exec.construct_of_other_count differs
    · rw [ClassDecl.demands, declared] at same
      exact Exec.construct_of_none (bears.initializer?_of_undeclared declared plain) same.symm
    · obtain ⟨own, rfl⟩ := Option.isSome_iff_exists.mp isSome
      obtain ⟨f, found, rfl⟩ := bears.initializer?_of_declared accepted.1 declared
      exact ⟨own, _, _, rfl, before.readies_bindFunction id f own,
        fun ctx => Exec.construct_of_some found bears.slot (arity.trans same)⟩

/-- A class with an initializer, which is called with an argument. -/
theorem classes_run_their_initializers_with_arguments :
    let start := Session.new {} .unlimited .unlimited
    let source := "class A { init(x) { this.x = x; } } var a = A(true); print a.x;"
    let c := start.chronicle [] 16 source
    c.machine.output.accepted = "true\n".toUTF8 ∧
    ∃ before arguments paren earlier method own f ready,
      c.deeds = c.deeds.take 4 ++ .called before 0 arguments paren :: earlier ∧ arguments.length = 1 ∧
      before.Readies 0 method own f ready ∧ ∀ ctx, Exec.construct ctx 0 arguments paren before = (do
        let _ ← Exec.callFunction ctx f arguments paren
        return Value.instance before.instances.size) ready := by
  intro start source c
  obtain ⟨printed, calls, makes⟩ : c.machine.output.accepted = "true\n".toUTF8 ∧
      ((c.deeds.drop 4).head?.bind Deed.called?).any
        (fun call => call.2.1 == 0 && call.2.2.1.length == 1) = true ∧
      ((c.deeds.drop 4).tail.findSome? Deed.made?).any (fun made => made.1 == 0 &&
        made.2.1.init?.isSome && made.2.1.demands == 1 && (made.2.2.get? "init").isNone) = true := by
    decide +kernel
  obtain ⟨⟨before, id, arguments, paren⟩, found, call⟩ := (Option.any_eq_true _ _).mp calls
  obtain ⟨⟨other, decl, values⟩, chosen, making⟩ := (Option.any_eq_true _ _).mp makes
  obtain ⟨deed, first, isCall⟩ := Option.bind_eq_some_iff.mp found
  obtain ⟨earlier, member, isMade⟩ := List.exists_of_findSome?_eq_some chosen
  obtain rfl := Deed.eq_called isCall
  obtain ⟨origin, slot, rfl⟩ := Deed.eq_made isMade
  simp only [Bool.and_eq_true, beq_iff_eq, Option.isNone_iff_eq_none] at call making
  obtain ⟨rfl, one⟩ := call
  obtain ⟨⟨⟨rfl, declares⟩, takesOne⟩, noField⟩ := making
  obtain ⟨method, declared⟩ := Option.isSome_iff_exists.mp declares
  have deeds : c.deeds = c.deeds.take 4 ++ .called before 0 arguments paren :: (c.deeds.drop 4).tail := by
    rw [← List.eq_cons_of_mem_head? first, List.take_append_drop]
  have plain : ∀ f, values.get? "init" = some (.function f) →
      (before.functionAt f).isInitializer = false := by
    intro f isField
    rw [noField] at isField
    cases isField
  have kept := classes_run_their_initializers (.new {} .unlimited .unlimited) 16 source
  have here := (kept.2 _ before 0 arguments paren _ deeds).2.2 origin decl values slot member plain
  obtain ⟨own, f, ready, -, readies, runs⟩ := here.2.2 (takesOne.trans one.symm) method declared
  exact ⟨printed, before, arguments, paren, _, method, own, f, ready, deeds, one, readies, runs⟩

end Lox
