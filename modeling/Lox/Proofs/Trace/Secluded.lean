import Lox.Proofs.Trace.Balance

set_option autoImplicit false

/-! What code inside of blocks, functions and expressions does to the global variables: it makes none and
takes none away, and it puts nothing into the root frame. Its declarations all have slots, and the frame
that they write to is not the root frame. -/

namespace Lox

/-- A function whose code is known. -/
def FunctionObject.Known (known : Site → Prop) (f : FunctionObject) : Prop :=
  ∃ path role, (∀ site ∈ Sites.function role path f.decl, known site) ∧ Regular.function f.decl

namespace Machine

/-- The root frame exists and is empty, and the code of all functions is known. -/
structure Secluded (known : Site → Prop) (m : Machine) : Prop where
  room : m.environment.root.frame < m.environment.frames.size
  empty : m.environment.frame m.environment.root.frame = Table.empty
  functions : ∀ id, (m.functionAt id).Known known

/-- The machine is secluded and has the same global variables as before. -/
structure Retains (known : Site → Prop) (m after : Machine) : Prop where
  secluded : after.Secluded known
  keys : after.environment.globals.keys = m.environment.globals.keys

/-- The frame that declarations write to is not the root frame. -/
def Away (m : Machine) : Prop :=
  m.environment.current.frame ≠ m.environment.root.frame

end Machine

theorem Machine.Away.stays {m after : Machine} (away : m.Away) (stays : m.Stays after) :
    after.Away := by
  unfold Away
  rw [stays.current, stays.root]
  exact away

section

variable {known : Site → Prop} {m after : Machine}

namespace Machine

theorem Retains.refl (secluded : m.Secluded known) : m.Retains known m :=
  ⟨secluded, rfl⟩

theorem Retains.trans {first second third : Machine} (one : first.Retains known second)
    (two : second.Retains known third) : first.Retains known third :=
  ⟨two.secluded, two.keys.trans one.keys⟩

/-- Whatever else changes makes no difference. -/
theorem Secluded.of_eq (secluded : m.Secluded known) (frames : after.environment.frames =
    m.environment.frames) (root : after.environment.root = m.environment.root)
    (functions : after.functions = m.functions) : after.Secluded known := by
  refine ⟨?_, ?_, fun id => ?_⟩
  · rw [root, frames]
    exact secluded.room
  · rw [root, Environment.frame, frames]
    exact secluded.empty
  · rw [functionAt, functions]
    exact secluded.functions id

theorem Secluded.retains (secluded : m.Secluded known)
    (environment : after.environment = m.environment) (functions : after.functions = m.functions) :
    m.Retains known after := by
  refine ⟨secluded.of_eq ?_ ?_ functions, ?_⟩ <;> rw [environment]

theorem Secluded.addFunction (secluded : m.Secluded known) {object : FunctionObject}
    (isKnown : object.Known known) : m.Retains known (m.addFunction object).2 := by
  refine ⟨⟨secluded.room, secluded.empty, fun id => ?_⟩, rfl⟩
  rw [functionAt_addFunction]
  split
  · exact isKnown
  · exact secluded.functions id

theorem Secluded.setCell (secluded : m.Secluded known) {id : FrameId}
    (other : id ≠ m.environment.root.frame) (slot : Slot) (value : Value) :
    m.Retains known { m with environment := m.environment.setCell id slot value } := by
  refine ⟨⟨?_, ?_, secluded.functions⟩, rfl⟩
  · rw [Environment.size_setCell]
    exact secluded.room
  · change (m.environment.setCell id slot value).frame m.environment.root.frame = Table.empty
    rw [Environment.frame_setCell, if_neg fun both => other both.1]
    exact secluded.empty

theorem Secluded.push (secluded : m.Secluded known) (cells : Frame) :
    m.Retains known { m with environment := m.environment.push cells } := by
  refine ⟨⟨?_, ?_, secluded.functions⟩, rfl⟩
  · simp only [Environment.push, Array.size_push]
    exact Nat.lt_succ_of_lt secluded.room
  · change (m.environment.push cells).frame m.environment.root.frame = Table.empty
    rw [Environment.frame_push, if_neg (Nat.ne_of_lt secluded.room)]
    exact secluded.empty

theorem Secluded.graft (secluded : m.Secluded known) (chain : Chain) :
    m.Retains known { m with environment := m.environment.graft chain } :=
  ⟨(secluded.push Table.empty).secluded.of_eq rfl rfl rfl, rfl⟩

theorem Secluded.away_graft (secluded : m.Secluded known) (chain : Chain) :
    Away { m with environment := m.environment.graft chain } :=
  Nat.ne_of_gt secluded.room

theorem Secluded.bindFunction (secluded : m.Secluded known) (id : FunctionId)
    (receiver : InstanceId) (slot : Slot) :
    m.Retains known (m.bindFunction id receiver slot).2 := by
  have pushed := secluded.push (Environment.cell slot (.instance receiver))
  exact pushed.trans (pushed.secluded.addFunction (secluded.functions id))

theorem Secluded.getProperty (secluded : m.Secluded known) (id : InstanceId) (name : String) :
    m.Retains known (m.getProperty id name).2 := by
  unfold Machine.getProperty
  dsimp only
  split
  · exact Retains.refl secluded
  · split
    · exact secluded.bindFunction _ _ _
    · exact Retains.refl secluded

/-- A frame that holds a slot is not the root frame. -/
theorem Secluded.ne_of_find? (secluded : m.Secluded known) {chain : Chain} {slot : Slot}
    {id : FrameId} (found : m.environment.find? chain slot = some id) :
    id ≠ m.environment.root.frame := by
  rintro rfl
  obtain ⟨_, _, _, held, _⟩ := Environment.find?_eq_some_iff.mp found
  rw [secluded.empty] at held
  cases held

end Machine

namespace Exec

variable (ctx : Context)

/-- What a plain computation leaves, whatever its outcome, has the same global variables as before. -/
def Retains {α : Type} (known : Site → Prop) (m : Machine) (plain : Exec α) : Prop :=
  m.Retains known (Outcome.state (plain m))

variable (secluded : m.Secluded known)
include secluded

theorem retains_fail {α : Type} (fault : RuntimeFault) (token : Token) :
    (fail fault token : Exec α).Retains known m :=
  Machine.Retains.refl secluded

theorem retains_close {decl : FunctionDecl} (isKnown : ∃ path role,
    (∀ site ∈ Sites.function role path decl, known site) ∧ Regular.function decl) :
    (close decl).Retains known m :=
  secluded.addFunction isKnown

theorem retains_bindFunction (id : FunctionId) (fresh : InstanceId) (slot : Slot) :
    (modifyGet (·.bindFunction id fresh slot) : Exec FunctionId).Retains known m :=
  secluded.bindFunction id fresh slot

theorem retains_ofOperator (token : Token) (result : Except RuntimeFault Value) :
    (ofOperator token result).Retains known m := by
  cases result <;> exact Machine.Retains.refl secluded

theorem retains_print (value : Value) : (print value).Retains known m := by
  change Exec.Retains known m (write (m.text value ++ "\n"))
  unfold Exec.Retains write
  cases m.output.failure? (m.text value ++ "\n") <;> exact secluded.retains rfl rfl

/-- A declaration with a slot. -/
theorem retains_declare (away : m.Away) {id : NodeId} (name : Token) (value : Value)
    (hasSlot : (ctx.bindings.slot? id).isSome = true) :
    (declare ctx id name value).Retains known m := by
  obtain ⟨slot, bound⟩ := Option.isSome_iff_exists.mp hasSlot
  unfold Exec.Retains declare
  rw [bound]
  exact secluded.setCell away slot value

omit secluded in
/-- An assignment makes no variable. -/
theorem keys_store (id : NodeId) (name : Token) (value : Value) (m : Machine) :
    (Outcome.state (store ctx id name value m)).environment.globals.keys =
      m.environment.globals.keys := by
  unfold store
  cases ctx.bindings.slot? id with
  | some slot =>
      dsimp only
      cases m.environment.find? m.environment.current slot <;> rfl
  | none =>
      dsimp only
      by_cases known : m.environment.globals.contains name.lexeme = true
      · rw [if_pos known]
        refine (Table.keys_insert _ _ _).trans (if_pos ?_)
        exact (Table.contains_iff_mem_keys _ _).mp known
      · rw [if_neg known]
        rfl

theorem retains_store (id : NodeId) (name : Token) (value : Value) :
    (store ctx id name value).Retains known m := by
  refine ⟨?_, keys_store ctx id name value m⟩
  unfold store
  cases ctx.bindings.slot? id with
  | some slot =>
      dsimp only
      cases found : m.environment.find? m.environment.current slot with
      | some frame => exact (secluded.setCell (secluded.ne_of_find? found) slot value).secluded
      | none => exact secluded
  | none =>
      dsimp only
      split
      · exact secluded.of_eq rfl rfl rfl
      · exact secluded

theorem retains_lookUp (id : NodeId) (name : Token) : (lookUp ctx id name).Retains known m := by
  unfold Exec.Retains
  rw [lookUp_state]
  exact Machine.Retains.refl secluded

theorem retains_getProperty (object : Value) (name : Token) :
    (getProperty object name).Retains known m := by
  unfold Exec.Retains getProperty
  cases object with
  | «instance» id =>
      dsimp only
      have kept := secluded.getProperty id name.lexeme
      split
      · next found => rw [found] at kept; exact kept
      · next found => rw [found] at kept; exact kept
  | _ => exact Machine.Retains.refl secluded

theorem retains_receiver (object : Value) (name : Token) :
    (receiver object name).Retains known m := by
  cases object <;> exact Machine.Retains.refl secluded

theorem retains_checkArity (expected found : Nat) (paren : Token) :
    (checkArity expected found paren).Retains known m := by
  unfold checkArity
  split <;> exact Machine.Retains.refl secluded

theorem retains_addMethods (path : Path) (closure : Chain) (decls : List FunctionDecl)
    (sites : ∀ site ∈ Sites.methods path decls, known site) (regular : Regular.functions decls)
    (members : Table String Value) : (addMethods closure members decls).Retains known m := by
  induction decls generalizing members m with
  | nil => exact Machine.Retains.refl secluded
  | cons method rest ih =>
      have parts := List.forall_mem_append.mp sites
      unfold addMethods
      cases method.name with
      | none => exact ih secluded parts.2 regular.2 members
      | some name =>
          have added : m.Retains known (m.addFunction ⟨method, closure, none⟩).2 :=
            secluded.addFunction ⟨path, _, parts.1, regular.1⟩
          exact added.trans (ih added.secluded parts.2 regular.2 _)

/-- Parameters go into the frame of their function. -/
theorem retains_bindParams (away : m.Away) (bindings : Bindings) (params : List Param)
    (values : List Value) :
    Exec.Retains known m (modify fun m : Machine =>
      { m with environment := bindParams bindings m.environment params values }) := by
  change m.Retains known { m with environment := bindParams bindings m.environment params values }
  induction params generalizing m values with
  | nil => exact Machine.Retains.refl secluded
  | cons param rest ih =>
      cases values with
      | nil => exact Machine.Retains.refl secluded
      | cons value values =>
          unfold bindParams
          cases bindings.slot? param.id with
          | none => exact ih secluded away values
          | some slot =>
              have set := secluded.setCell away slot value
              exact set.trans (ih set.secluded away values)

end Exec
end
end Lox
