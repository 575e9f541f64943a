import Lox.Proofs.Lexical.Lockstep
import Lox.Proofs.Lexical.Placement

set_option autoImplicit false

/-! Names on both sides. A name leads to a cell on one side and to its slot in a frame on the other; so
reading it and assigning to it go alike. A declaration adds a cell to the frame of the code that runs, and
after it its name leads there. -/

namespace Lox.Lexical

variable {bindings : Bindings} {w more : World} {m after : Machine} {n last : Memory}
  {path other : Path} {chain : Chain} {sight : Sight} {sites rest : List Site} {own : List Slot}
  {id : NodeId} {name : Token} {value : Value}

/-- Code that can run on a machine and a memory. -/
structure Ready (bindings : Bindings) (w : World) (m : Machine) (n : Memory) (path : Path)
    (sight : Sight) (sites : List Site) (own : List Slot) : Prop where
  shared : Shared bindings w m n
  placed : Placed bindings w path m.environment.current sight sites own

theorem Ready.step (ready : Ready bindings w m n path sight sites own)
    (step : Step bindings [] w m more after last) :
    Ready bindings more after last path sight sites own := by
  refine ⟨step.shared, ?_⟩
  rw [step.current]
  refine ready.placed.le step.le fun slot member present => ?_
  rcases step.fresh _ present with old | new | impossible
  · exact (ready.placed.room slot member).2 old
  · exact Nat.not_lt.mpr new (ready.placed.sees.frames _ List.mem_cons_self)
  · cases impossible.2

theorem Ready.left (ready : Ready bindings w m n path sight (sites ++ rest) own) :
    Ready bindings w m n path sight sites own :=
  ⟨ready.shared, ready.placed.left⟩

theorem Ready.right (ready : Ready bindings w m n path sight (sites ++ rest) own) :
    Ready bindings w m n path sight rest own :=
  ⟨ready.shared, ready.placed.right⟩

/-- A name leads to a cell and to its slot, or is in sight on neither side. -/
def Leads (bindings : Bindings) (w : World) (chain : Chain) (sight : Sight) (id : NodeId)
    (name : String) : Prop :=
  match bindings.slot? id with
  | none => sight.find? name = none
  | some slot => ∃ cell, sight.find? name = some cell ∧ w.Holds chain slot cell

theorem Sees.leads {name : String} (sees : Sees bindings w path chain sight)
    (means : bindings.Means path name id) : Leads bindings w chain sight id name := by
  unfold Bindings.Means at means
  unfold Leads
  cases found : path.declaration? name with
  | none =>
      rw [found] at means
      rw [means]
      exact sees.absent name found
  | some declaration =>
      rw [found] at means
      obtain ⟨slot, declares, bound⟩ := means
      obtain ⟨same, cell, binds, isFound, holds⟩ := sees.present name declaration found
      cases declares.symm.trans binds
      rw [show bindings.slot? id = some slot from bound]
      exact ⟨cell, isFound, holds⟩

theorem Sees.leads_own {name : String} (sees : Sees bindings w other chain sight)
    (adds : path.Adds other id name) (holds : path.holdsStatements = true)
    (bound : (bindings.slot? id).isSome = path.isLocal) :
    Leads bindings w chain sight id name := by
  unfold Leads
  cases isLocal : path.isLocal with
  | true =>
      have means : other.declaration? name = some id := by
        rw [adds.declaration?, if_pos ⟨isLocal, rfl⟩]
      obtain ⟨slot, cell, binds, isFound, held⟩ := sees.present name id means
      rw [show bindings.slot? id = some slot from binds]
      exact ⟨cell, isFound, held⟩
  | false =>
      have means : other.declaration? name = none := by
        rw [adds.declaration?, if_neg (by simp [isLocal])]
        exact Path.declaration?_of_not_isLocal holds isLocal name
      rw [isLocal, Option.isSome_eq_false_iff, Option.isNone_iff_eq_none] at bound
      rw [bound]
      exact sees.absent name means

theorem Leads.le {name : String} (leads : Leads bindings w chain sight id name) (le : w.Le more)
    (frames : ∀ frame ∈ chain.frames, frame < w.homes.length) :
    Leads bindings more chain sight id name := by
  unfold Leads at leads ⊢
  cases slotOf : bindings.slot? id with
  | none =>
      rw [slotOf] at leads
      exact leads
  | some slot =>
      rw [slotOf] at leads
      obtain ⟨cell, found, holds⟩ := leads
      exact ⟨cell, found, holds.le le frames⟩

/-- Both sides yield one value, which may be used. -/
def Alike (bindings : Bindings) (w : World) (real plain : Value) : Prop :=
  plain = real ∧ w.Backs bindings real

variable {ctx : Lox.Context}

theorem lookUp_lockstep (shared : Shared ctx.bindings w m n)
    (leads : Leads ctx.bindings w m.environment.current sight id name.lexeme) :
    Lockstep ctx.bindings [] w m n (Exec.lookUp ctx id name) (Run.lookUp sight name)
      (Alike ctx.bindings) := by
  unfold Leads at leads
  cases slotOf : ctx.bindings.slot? id with
  | none =>
      rw [slotOf] at leads
      have globals := shared.objects.globals
      cases found : m.environment.globals.get? name.lexeme with
      | some value =>
          refine Lockstep.of_ok ?_ ?_ (Step.refl shared)
            ⟨rfl, shared.objects.backsGlobals name.lexeme value found⟩
          · simp only [Exec.lookUp, slotOf, Environment.getGlobal?, found]
          · simp only [Run.lookUp, leads, globals, found]
      | none =>
          refine (Lockstep.fail shared (.undefinedVariable name.lexeme) name).congr ?_ ?_
          · simp only [Exec.lookUp, slotOf, Environment.getGlobal?, found]
          · simp only [Run.lookUp, leads, globals, found]
  | some slot =>
      rw [slotOf] at leads
      obtain ⟨cell, found, holds⟩ := leads
      obtain ⟨frame, isFound, place⟩ := shared.locals.find?_of_holds holds
      have held := shared.locals.cellAt place
      have read : m.environment.get? slot = some (n.cellAt cell) := by
        rw [Environment.get?, Environment.read?_of_find? isFound, shared.locals.holds cell frame slot
          place, held]
      refine Lockstep.of_ok (a := n.cellAt cell) (b := n.cellAt cell) ?_ ?_ (Step.refl shared)
        ⟨rfl, shared.backsCells cell _ held⟩
      · simp only [Exec.lookUp, slotOf, read]
      · simp only [Run.lookUp, found]

theorem store_lockstep (shared : Shared ctx.bindings w m n)
    (leads : Leads ctx.bindings w m.environment.current sight id name.lexeme)
    (backs : w.Backs ctx.bindings value) :
    Lockstep ctx.bindings [] w m n (Exec.store ctx id name value) (Run.store sight name value)
      fun _ _ _ => True := by
  unfold Leads at leads
  cases slotOf : ctx.bindings.slot? id with
  | none =>
      rw [slotOf] at leads
      have globals := shared.objects.globals
      cases found : m.environment.globals.contains name.lexeme with
      | true =>
          refine Lockstep.of_ok (a := ()) (b := ()) ?_ ?_ (Step.still (World.Le.refl w)
            (shared.defineGlobal name.lexeme backs) rfl rfl) trivial
          · simp only [Exec.store, slotOf, found, if_true]
          · simp only [Run.store, leads, globals, found, if_true]
      | false =>
          refine (Lockstep.fail shared (.undefinedVariable name.lexeme) name).congr ?_ ?_
          · simp only [Exec.store, slotOf, found, Bool.false_eq_true, if_false]
          · simp only [Run.store, leads, globals, found, Bool.false_eq_true, if_false]
  | some slot =>
      rw [slotOf] at leads
      obtain ⟨cell, found, holds⟩ := leads
      obtain ⟨frame, isFound, place⟩ := shared.locals.find?_of_holds holds
      refine Lockstep.of_ok (a := ()) (b := ()) ?_ ?_ (Step.still (World.Le.refl w)
        (shared.store place backs) rfl rfl) trivial
      · simp only [Exec.store, slotOf, isFound]
      · simp only [Run.store, found]

/-- A declaration adds a cell to the frame of the code that runs, or a global variable. -/
theorem declare_lockstep
    (ready : Ready ctx.bindings w m n path sight (⟨path, .declaration id name⟩ :: rest)
      (ctx.bindings.slotsOf [id]))
    (backs : w.Backs ctx.bindings value) :
    Lockstep ctx.bindings (ctx.bindings.slotsOf [id]) w m n (Exec.declare ctx id name value)
      (Run.declare sight name value) fun more _ inner =>
        ∀ other, path.Adds other id name.lexeme →
          Sees ctx.bindings more other m.environment.current inner := by
  obtain ⟨shared, placed⟩ := ready
  cases slotOf : ctx.bindings.slot? id with
  | none =>
      have here := placed.declaresGlobal slotOf
      rw [here.own]
      refine Lockstep.of_ok (a := ()) (b := sight) ?_ ?_ (Step.still (World.Le.refl w)
        (shared.defineGlobal name.lexeme backs) rfl rfl) here.sees
      · simp only [Exec.declare, slotOf]
      · simp only [Run.declare, here.isLocal, Bool.false_eq_true, if_false]
  | some slot =>
      have here := placed.declaresLocal slotOf
      have le := w.le_addCell m.environment.current.frame slot
      have count := shared.locals.count
      have step : Step ctx.bindings (ctx.bindings.slotsOf [id]) w m _ _ _ :=
        Step.added le (shared.define here.belongs here.small here.new (backs.le le)) rfl rfl
          (by rw [here.own]; exact List.mem_cons_self)
      refine Lockstep.of_ok (a := ()) (b := sight.add name.lexeme w.places.length) ?_ ?_ step
        here.sees
      · simp only [Exec.declare, slotOf]
        rfl
      · simp only [Run.declare, here.isLocal, if_true, Memory.addCell, count]

end Lox.Lexical
