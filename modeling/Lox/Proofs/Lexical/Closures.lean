import Lox.Proofs.Lexical.Operations

set_option autoImplicit false

/-! Functions are made alike: a declared function sees itself, the methods of a class see what is in sight
where the class is declared, and a call adds a cell for each parameter. -/

namespace Lox

theorem Table.insert_insert {κ α : Type} [DecidableEq κ] (table : Table κ α) (key : κ)
    (first second : α) : (table.insert key first).insert key second = table.insert key second := by
  have twice : ∀ entries : List (κ × α),
      update key second (update key first entries) = update key second entries := by
    intro entries
    induction entries with
    | nil => simp [update]
    | cons entry rest ih =>
        by_cases same : entry.1 = key
        · simp [update, same]
        · simp [update, same, ih]
  exact congrArg Table.mk (twice table.entries)

namespace Lexical

theorem setIfInBounds_push {α : Type} (items : Array α) (first second : α) :
    (items.push first).setIfInBounds items.size second = items.push second := by
  refine Array.ext_getElem? fun index => ?_
  rw [Array.getElem?_setIfInBounds, Array.getElem?_push, Array.getElem?_push, Array.size_push]
  by_cases same : index = items.size
  · simp [same]
  · simp [same, Ne.symm same]

theorem Run.declareFunction_of_local {sight : Sight} (isLocal : sight.isLocal = true) (name : Token)
    (decl : FunctionDecl) (n : Memory) :
    declareFunction sight name decl n = .ok (sight.add name.lexeme n.cells.size)
      ((n.addFunction ⟨decl, sight.add name.lexeme n.cells.size, none⟩).2.addCell
        (.function n.functions.size)).2 := by
  have declared : declare sight name .nil n =
      .ok (sight.add name.lexeme n.cells.size) (n.addCell .nil).2 := by
    simp only [declare, isLocal, if_true, Memory.addCell]
  have found : (sight.add name.lexeme n.cells.size).find? name.lexeme = some n.cells.size := by
    rw [Sight.find?_add, if_pos rfl]
  have stored (value : Value) (k : Memory) :
      store (sight.add name.lexeme n.cells.size) name value k =
        .ok () (k.setCell n.cells.size value) := by
    simp only [store, found]
  have closed (inner : Sight) (k : Memory) : close inner decl k =
      .ok (.function k.functions.size) (k.addFunction ⟨decl, inner, none⟩).2 := rfl
  rw [declareFunction, Outcome.bind_of_ok declared, Outcome.bind_of_ok (closed _ _),
    Outcome.bind_of_ok (stored _ _)]
  change EStateM.Result.ok _ _ = _
  simp only [Memory.addCell, Memory.addFunction, Memory.setCell, setIfInBounds_push]

theorem Run.declareFunction_of_global {sight : Sight} (isLocal : sight.isLocal = false)
    {name : Token} (absent : sight.find? name.lexeme = none) (decl : FunctionDecl) (n : Memory) :
    declareFunction sight name decl n = .ok sight
      ((n.addFunction ⟨decl, sight, none⟩).2.defineGlobal name.lexeme
        (.function n.functions.size)) := by
  have declared : declare sight name .nil n = .ok sight (n.defineGlobal name.lexeme .nil) := by
    simp only [declare, isLocal, Bool.false_eq_true, if_false]
  have present : (n.globals.insert name.lexeme .nil).contains name.lexeme = true := by
    rw [Table.contains, Table.get?_insert, if_pos rfl]
    rfl
  have closed (k : Memory) : close sight decl k =
      .ok (.function k.functions.size) (k.addFunction ⟨decl, sight, none⟩).2 := rfl
  have stored (value : Value) (k : Memory) (known : k.globals.contains name.lexeme = true) :
      store sight name value k = .ok () (k.defineGlobal name.lexeme value) := by
    simp only [store, absent, known, if_true]
  rw [declareFunction, Outcome.bind_of_ok declared, Outcome.bind_of_ok (closed _),
    Outcome.bind_of_ok (stored _ _ present)]
  change EStateM.Result.ok _ _ = _
  simp only [Memory.addFunction, Memory.defineGlobal, Table.insert_insert]

variable {w more : World} {m after : Machine} {n last : Memory} {path : Path} {sight : Sight}
  {own : List Slot} {ctx : Lox.Context}

/-- A function that is declared is made where its own name is already in sight. -/
theorem declareFunction_lockstep {id : NodeId} {name : Token} {decl : FunctionDecl}
    (ready : Ready ctx.bindings w m n path sight
      (⟨path, .declaration id name⟩ :: Sites.function .function (.own id name :: path) decl)
      (ctx.bindings.slotsOf [id]))
    (holds : path.holdsStatements = true) (regular : Regular.function decl)
    (noInitial : Initialized.function decl = []) :
    Lockstep ctx.bindings (ctx.bindings.slotsOf [id]) w m n
      (Exec.close decl >>= Exec.declare ctx id name) (Run.declareFunction sight name decl)
      fun more _ inner => ∀ other, path.Adds other id name.lexeme →
        Sees ctx.bindings more other m.environment.current inner := by
  obtain ⟨shared, placed⟩ := ready
  have declares : (ctx.bindings.slot? id).isSome = path.isLocal :=
    placed.bound _ List.mem_cons_self
  have code := placed.tail fun slot member => by
    rw [← slotsOf_declaration path name declares]
    exact member
  have adds := path.adds_own id name
  cases slotOf : ctx.bindings.slot? id with
  | none =>
      rw [slotOf] at declares
      have here := placed.declaresGlobal slotOf
      have absent : sight.find? name.lexeme = none :=
        placed.sees.absent _ (Path.declaration?_of_not_isLocal holds declares.symm _)
      let e : Entry := ⟨decl, none, m.environment.current, sight⟩
      have le := w.le_addEntry e
      obtain ⟨step, same, backs⟩ := addFunction_step shared e
        ⟨_, .function, (code.move (here.sees _ adds)).le_nil le, regular, noInitial⟩
      have plain := Run.declareFunction_of_global here.isLocal absent decl n
      rw [show n.functions.size = m.functions.size from same] at plain
      have stored := step.shared.defineGlobal name.lexeme backs
      rw [here.own]
      refine Lockstep.of_ok (a := ()) ?_ plain (Step.still le stored rfl rfl)
        fun other adds => (here.sees other adds).le le
      rw [Outcome.bind_of_ok (show Exec.close decl m = _ from rfl)]
      simp only [Exec.declare, slotOf]
      rfl
  | some slot =>
      let e : Entry := ⟨decl, none, m.environment.current, sight.add name.lexeme w.places.length⟩
      have room := (placed.le (w.le_addEntry e) fun slot member => (placed.room slot member).2)
      have here := room.declaresLocal slotOf
      let bound := (w.addEntry e).addCell m.environment.current.frame slot
      have le : w.Le bound := (w.le_addEntry e).trans ((w.addEntry e).le_addCell _ _)
      have runs : e.Runs ctx.bindings bound :=
        ⟨_, .function, (code.le_nil le).move (here.sees _ adds), regular, noInitial⟩
      have ids := shared.addFunction_id e
      have backs : bound.Backs ctx.bindings (.function (m.addFunction e.object).1) := by
        intro wanted same
        cases same
        refine ⟨e, ?_, runs⟩
        rw [ids.1]
        simp [bound, World.addCell, World.addEntry]
      have plain := Run.declareFunction_of_local here.isLocal name decl n
      rw [show n.functions.size = m.functions.size from ids.2.trans ids.1.symm,
        shared.locals.count] at plain
      have stored := (shared.addFunction e).define here.belongs here.small here.new backs
      have isOwn : slot ∈ ctx.bindings.slotsOf [id] := by
        rw [here.own]
        exact List.mem_cons_self
      refine Lockstep.of_ok (a := ()) ?_ plain (Step.added le stored rfl rfl isOwn) here.sees
      rw [Outcome.bind_of_ok (show Exec.close decl m = _ from rfl)]
      simp only [Exec.declare, slotOf]
      rfl

def World.BacksTable (bindings : Bindings) (w : World) (thisSlot : Option Slot)
    (table : Table String Value) : Prop :=
  ∀ name value, table.get? name = some value → w.BacksMember bindings thisSlot value

section

variable {bindings : Bindings} {thisSlot : Option Slot} {table : Table String Value}
  {chain : Chain}

theorem World.BacksTable.le (backs : w.BacksTable bindings thisSlot table) (le : w.Le more) :
    more.BacksTable bindings thisSlot table :=
  fun name value found => (backs name value found).le le

theorem World.BacksTable.insert (backs : w.BacksTable bindings thisSlot table) (name : String)
    {value : Value} (own : w.BacksMember bindings thisSlot value) :
    w.BacksTable bindings thisSlot (table.insert name value) := by
  intro wanted held found
  rw [Table.get?_insert] at found
  split at found
  · cases found
    exact own
  · exact backs wanted held found

theorem addMethods_lockstep {thisId : NodeId} {slot : Slot} (binds : bindings.Binds thisId slot) :
    ∀ (decls : List FunctionDecl) (w : World) (m : Machine) (n : Memory)
      (table : Table String Value), Shared bindings w m n →
      Placed bindings w path chain sight (⟨.members thisId :: path, .receiver thisId⟩ ::
        Sites.methods (.members thisId :: path) decls) [] →
      Regular.functions decls → Initialized.functions decls = [] →
      w.BacksTable bindings (some slot) table →
      Lockstep bindings [] w m n (Exec.addMethods chain table decls)
        (Run.addMethods sight table decls)
        fun more a b => b = a ∧ more.BacksTable bindings (some slot) a
  | [], w, m, n, table, shared, _, _, _, backs => Lockstep.pure shared ⟨rfl, backs⟩
  | method :: rest, w, m, n, table, shared, placed, regular, noInitial, backs => by
      have here := placed.part ((List.sublist_append_left _ _).cons_cons _)
      have later := placed.part ((List.sublist_append_right _ _).cons_cons _)
      have noneIn := List.append_eq_nil_iff.mp noInitial
      rw [Exec.addMethods, Run.addMethods]
      cases named : method.name with
      | none =>
          exact addMethods_lockstep binds rest w m n table shared later regular.2 noneIn.2 backs
      | some name =>
          let e : Entry := ⟨method, none, chain, sight⟩
          have le := w.le_addEntry e
          have step : Step bindings [] w m (w.addEntry e) (m.addFunction e.object).2
              (n.addFunction e.closure).2 := Step.still le (shared.addFunction e) rfl rfl
          have ids := shared.addFunction_id e
          have member : (w.addEntry e).BacksMember bindings (some slot)
              (.function (m.addFunction e.object).1) := by
            intro id same
            cases same
            refine ⟨e, ?_, path, _, thisId, slot, rfl, binds, here.le_nil le, regular.1, noneIn.1⟩
            rw [ids.1]
            simp [World.addEntry]
          refine Lockstep.modifyGet_bind (f := (·.addFunction e.object))
            (g := (·.addFunction e.closure)) step ?_
          rw [ids.2.trans ids.1.symm]
          exact addMethods_lockstep binds rest _ _ _ _ step.shared (later.le_nil le) regular.2
            noneIn.2 ((backs.le le).insert _ member)

end

theorem slotted_params (role : FunctionKind) (path : Path) (earlier parameters : List Param) :
    Sites.slotted (Sites.params role path earlier parameters) = parameters.map (·.id) := by
  induction parameters generalizing earlier with
  | nil => rfl
  | cons param rest ih =>
      change Site.slotted _ ++ Sites.slotted (Sites.params role path (param :: earlier) rest) = _
      rw [ih]
      rfl

def giveParams (bindings : Bindings) (params : List Param) (values : List Value) : Exec Unit :=
  modify fun m =>
    { m with environment := Exec.bindParams bindings m.environment params values }

theorem giveParams_cons {param : Param} {slot : Slot}
    (slotOf : ctx.bindings.slot? param.id = some slot) (params : List Param) (value : Value)
    (values : List Value) (m : Machine) :
    giveParams ctx.bindings (param :: params) (value :: values) m =
      (Exec.declare ctx param.id param.name value >>= fun _ =>
        giveParams ctx.bindings params values) m := by
  have declared : Exec.declare ctx param.id param.name value m =
      .ok () { m with environment := m.environment.define slot value } := by
    simp only [Exec.declare, slotOf]
  rw [Outcome.bind_of_ok declared]
  change EStateM.Result.ok () _ = EStateM.Result.ok () _
  simp only [Exec.bindParams, slotOf]

theorem bindParams_lockstep {role : FunctionKind} {rest : List Site} {later : List Slot}
    (covers : ∀ slot ∈ later, slot ∈ ctx.bindings.slotsOf (Sites.slotted rest)) :
    ∀ (parameters : List Param) (arguments : List Value) (earlier : List Param) (w : World)
      (m : Machine) (n : Memory) (sight : Sight),
      Ready ctx.bindings w m n (.function role earlier [] :: path) sight
        (Sites.params role path earlier parameters ++ rest)
        (ctx.bindings.slotsOf (parameters.map (·.id)) ++ later) →
      (∀ value ∈ arguments, w.Backs ctx.bindings value) → parameters.length = arguments.length →
      Lockstep ctx.bindings (ctx.bindings.slotsOf (parameters.map (·.id))) w m n
        (giveParams ctx.bindings parameters arguments) (Run.bindParams sight parameters arguments)
        fun more _ inner => Placed ctx.bindings more
          (.function role (parameters.reverse ++ earlier) [] :: path) m.environment.current inner
          rest later
  | [], [], earlier, w, m, n, sight, ready, _, _ =>
      Lockstep.of_ok (a := ()) (b := sight) rfl rfl (Step.refl ready.shared) ready.placed
  | [], _ :: _, _, _, _, _, _, _, _, impossible => nomatch impossible
  | _ :: _, [], _, _, _, _, _, _, _, impossible => nomatch impossible
  | param :: params, value :: values, earlier, w, m, n, sight, ready, backs, same => by
      obtain ⟨shared, placed⟩ := ready
      have declares : (ctx.bindings.slot? param.id).isSome = true :=
        placed.bound _ List.mem_cons_self
      obtain ⟨slot, slotOf⟩ := Option.isSome_iff_exists.mp declares
      have one : ctx.bindings.slotsOf ((param :: params).map (·.id)) =
          ctx.bindings.slotsOf [param.id] ++ ctx.bindings.slotsOf (params.map (·.id)) :=
        Bindings.slotsOf_append [param.id] (params.map (·.id))
      rw [one, List.append_assoc] at placed
      change Placed _ _ _ _ _
        ([_] ++ (Sites.params role path (param :: earlier) params ++ rest)) _ at placed
      have split : Sites.slotted (Sites.params role path (param :: earlier) params ++ rest) =
          params.map (·.id) ++ Sites.slotted rest := by
        rw [Sites.slotted, List.flatMap_append]
        exact congrArg (· ++ Sites.slotted rest) (slotted_params role path (param :: earlier) params)
      have coversLater : ∀ slot ∈ ctx.bindings.slotsOf (params.map (·.id)) ++ later,
          slot ∈ ctx.bindings.slotsOf
            (Sites.slotted (Sites.params role path (param :: earlier) params ++ rest)) := by
        intro wanted member
        rw [split, Bindings.slotsOf_append]
        exact List.mem_append.mpr ((List.mem_append.mp member).imp_right (covers wanted))
      rw [one]
      refine Lockstep.congr ?_ (giveParams_cons slotOf params value values m) rfl
      have first : Ready ctx.bindings w m n (.function role earlier [] :: path) sight
          [⟨.function role earlier [] :: path, .declaration param.id param.name⟩]
          (ctx.bindings.slotsOf [param.id]) :=
        ⟨shared, placed.first coversLater⟩
      apply (declare_lockstep first (backs value List.mem_cons_self)).bind
      intro _ inner more after last step sees
      have isOwn := slotsOf_declaration (.function role earlier [] :: path) param.name declares
      have there := placed.second (fun wanted member => isOwn ▸ member) coversLater step.le
        step.fresh
      rw [← step.current] at there sees
      have final := bindParams_lockstep covers params values (param :: earlier) more after last inner
        ⟨step.shared, there.move (sees _ (path.adds_param role earlier param))⟩
        (fun other member => (backs other (List.mem_cons_of_mem _ member)).le step.le)
        (Nat.succ.inj same)
      rw [List.reverse_cons, List.append_assoc, List.singleton_append, ← step.current]
      exact final

end Lexical
end Lox
