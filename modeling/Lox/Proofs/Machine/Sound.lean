import Lox.Proofs.Machine.Cells
import Lox.Proofs.Scope.Binding
import Lox.Proofs.Scope.Fault

set_option autoImplicit false

/-! Sound machines. A chain of frames covers a place if it holds the slot of every declaration that a
name can mean there; inside the initializer of a field the receiver is left out, since no frame holds
it yet. A machine is sound if every function that a value names was made where its chain covers its
place. A method in a class lacks its receiver and gets it when it is bound. -/

namespace Lox

/-- The sites of the code that may run are bound as their paths say, and none is at fault. -/
structure Vouched (known : Site → Prop) (bindings : Bindings) : Prop where
  bound : ∀ site, known site → site.Bound bindings
  clean : ∀ site, known site → ∀ e, ¬ Offends site e

section

variable (known : Site → Prop) (bindings : Bindings)

/-- A chain holds the slots of all declarations that names can mean at a place. -/
def Environment.Covers (env : Environment) (path : Path) (chain : Chain) : Prop :=
  ∀ name declaration, path.declaration? name = some declaration →
    (name = thisName → path.inField = false) →
      ∃ slot, bindings.Binds declaration slot ∧ env.Holds chain slot

/-- A function that can be called. -/
def FunctionObject.Runs (env : Environment) (f : FunctionObject) : Prop :=
  ∃ path role, (∀ site ∈ Sites.function role path f.decl, known site) ∧
    Regular.function f.decl ∧ env.Covers bindings path f.closure

/-- A method of a class, which can be called as soon as a frame holds its receiver. -/
def FunctionObject.LacksReceiver (env : Environment) (thisSlot : Option Slot)
    (f : FunctionObject) : Prop :=
  ∃ path role thisId slot, thisSlot = some slot ∧ bindings.Binds thisId slot ∧
    (∀ site ∈ Sites.function role (.members thisId :: path) f.decl, known site) ∧
      Regular.function f.decl ∧ env.Covers bindings path f.closure

namespace Machine

/-- A value that may be stored and called. -/
def Backs (m : Machine) (value : Value) : Prop :=
  ∀ id, value = .function id → id < m.functions.size ∧
    (m.functionAt id).Runs known bindings m.environment

/-- A value that may be a member of a class with a given slot for the receiver. -/
def BacksMember (m : Machine) (thisSlot : Option Slot) (value : Value) : Prop :=
  ∀ id, value = .function id → id < m.functions.size ∧
    ((m.functionAt id).Runs known bindings m.environment ∨
      (m.functionAt id).LacksReceiver known bindings m.environment thisSlot)

/-- All values of a machine may be used, and the frames that statements write to exist. -/
structure Sound (m : Machine) : Prop where
  current : m.environment.current.frame < m.environment.frames.size
  root : m.environment.root.frame < m.environment.frames.size
  cells : ∀ id slot value, (m.environment.frame id).get? slot = some value →
    m.Backs known bindings value
  globals : ∀ name value, m.environment.globals.get? name = some value →
    m.Backs known bindings value
  members : ∀ id name value, (m.classAt id).members.get? name = some value →
    m.BacksMember known bindings (m.classAt id).thisSlot value
  fields : ∀ id name value, (m.instanceAt id).fields.get? name = some value →
    m.Backs known bindings value

end Machine

end

namespace Machine

/-- Functions are kept, and frames and their slots are never lost. -/
structure Grows (m after : Machine) : Prop where
  size : m.functions.size ≤ after.functions.size
  functions : ∀ id, id < m.functions.size → after.functionAt id = m.functionAt id
  frames : m.environment.frames.size ≤ after.environment.frames.size
  slots : ∀ id slot, ((m.environment.frame id).get? slot).isSome = true →
    ((after.environment.frame id).get? slot).isSome = true

/-- What else changes makes no difference. -/
theorem Grows.of_eq {m after : Machine} (functions : after.functions = m.functions)
    (frames : after.environment.frames = m.environment.frames) : m.Grows after := by
  refine ⟨Nat.le_of_eq (congrArg Array.size functions.symm), fun id _ => ?_,
    Nat.le_of_eq (congrArg Array.size frames.symm), fun id slot held => ?_⟩
  · rw [functionAt, functionAt, functions]
  · rw [Environment.frame, frames]
    exact held

theorem Grows.refl (m : Machine) : m.Grows m :=
  Grows.of_eq rfl rfl

theorem Grows.trans {first second third : Machine} (one : first.Grows second)
    (two : second.Grows third) : first.Grows third :=
  ⟨Nat.le_trans one.size two.size,
    fun id small => (two.functions id (Nat.lt_of_lt_of_le small one.size)).trans
      (one.functions id small),
    Nat.le_trans one.frames two.frames,
    fun id slot held => two.slots id slot (one.slots id slot held)⟩

end Machine

variable {known : Site → Prop} {bindings : Bindings} {m after : Machine} {path : Path}
  {chain : Chain} {value : Value}

theorem Environment.Holds.grow {slot : Slot} (holds : m.environment.Holds chain slot)
    (grows : m.Grows after) : after.environment.Holds chain slot := by
  obtain ⟨id, member, held⟩ := holds
  exact ⟨id, member, grows.slots id slot held⟩

theorem Environment.Covers.grow (covers : m.environment.Covers bindings path chain)
    (grows : m.Grows after) : after.environment.Covers bindings path chain := by
  intro name declaration means notField
  obtain ⟨slot, bound, holds⟩ := covers name declaration means notField
  exact ⟨slot, bound, holds.grow grows⟩

theorem FunctionObject.Runs.grow {f : FunctionObject} (runs : f.Runs known bindings m.environment)
    (grows : m.Grows after) : f.Runs known bindings after.environment := by
  obtain ⟨path, role, sites, regular, covers⟩ := runs
  exact ⟨path, role, sites, regular, covers.grow grows⟩

theorem FunctionObject.LacksReceiver.grow {f : FunctionObject} {thisSlot : Option Slot}
    (lacks : f.LacksReceiver known bindings m.environment thisSlot) (grows : m.Grows after) :
    f.LacksReceiver known bindings after.environment thisSlot := by
  obtain ⟨path, role, thisId, slot, same, bound, sites, regular, covers⟩ := lacks
  exact ⟨path, role, thisId, slot, same, bound, sites, regular, covers.grow grows⟩

namespace Machine

theorem Backs.grow (backs : m.Backs known bindings value) (grows : m.Grows after) :
    after.Backs known bindings value := by
  intro id same
  obtain ⟨small, runs⟩ := backs id same
  rw [grows.functions id small]
  exact ⟨Nat.lt_of_lt_of_le small grows.size, runs.grow grows⟩

theorem BacksMember.grow {thisSlot : Option Slot}
    (backs : m.BacksMember known bindings thisSlot value) (grows : m.Grows after) :
    after.BacksMember known bindings thisSlot value := by
  intro id same
  obtain ⟨small, either⟩ := backs id same
  rw [grows.functions id small]
  exact ⟨Nat.lt_of_lt_of_le small grows.size,
    either.imp (fun runs => runs.grow grows) fun lacks => lacks.grow grows⟩

theorem Backs.member (backs : m.Backs known bindings value) (thisSlot : Option Slot) :
    m.BacksMember known bindings thisSlot value := by
  intro id same
  obtain ⟨small, runs⟩ := backs id same
  exact ⟨small, .inl runs⟩

theorem BacksMember.of_none (backs : m.BacksMember known bindings none value) :
    m.Backs known bindings value := by
  intro id same
  obtain ⟨small, runs | lacks⟩ := backs id same
  · exact ⟨small, runs⟩
  · obtain ⟨_, _, _, _, impossible, _⟩ := lacks
    cases impossible

theorem Sound.mono {more : Site → Prop} {grown : Bindings} (sound : m.Sound known bindings)
    (wider : ∀ site, known site → more site) (grows : bindings.Grows grown) :
    m.Sound more grown := by
  have covers {path : Path} {chain : Chain} (before : m.environment.Covers bindings path chain) :
      m.environment.Covers grown path chain := by
    intro name declaration means notField
    obtain ⟨slot, bound, holds⟩ := before name declaration means notField
    exact ⟨slot, grows _ _ bound, holds⟩
  have runs {f : FunctionObject} (before : f.Runs known bindings m.environment) :
      f.Runs more grown m.environment := by
    obtain ⟨path, role, sites, regular, covered⟩ := before
    exact ⟨path, role, fun site member => wider site (sites site member), regular, covers covered⟩
  have backs {value : Value} (before : m.Backs known bindings value) :
      m.Backs more grown value :=
    fun id same => ⟨(before id same).1, runs (before id same).2⟩
  refine ⟨sound.current, sound.root, fun id slot value held => backs (sound.cells id slot value held),
    fun name value held => backs (sound.globals name value held), fun id name value held => ?_,
    fun id name value held => backs (sound.fields id name value held)⟩
  intro f same
  obtain ⟨small, either⟩ := sound.members id name value held f same
  refine ⟨small, either.imp runs ?_⟩
  rintro ⟨path, role, thisId, slot, own, bound, sites, regular, covered⟩
  exact ⟨path, role, thisId, slot, own, grows _ _ bound,
    fun site member => wider site (sites site member), regular, covers covered⟩

theorem backs_of_other (other : ∀ id, value ≠ .function id) : m.Backs known bindings value :=
  fun id same => absurd same (other id)

theorem backs_nil : m.Backs known bindings .nil :=
  backs_of_other nofun

theorem backs_class (id : ClassId) : m.Backs known bindings (.class id) :=
  backs_of_other nofun

theorem backs_instance (id : InstanceId) : m.Backs known bindings (.instance id) :=
  backs_of_other nofun

/-- A step that leaves a sound machine, keeps what was there, and goes on in the same chain. -/
structure Steps (known : Site → Prop) (bindings : Bindings) (m after : Machine) : Prop where
  sound : after.Sound known bindings
  grows : m.Grows after
  current : after.environment.current = m.environment.current

theorem Steps.refl (sound : m.Sound known bindings) : m.Steps known bindings m :=
  ⟨sound, Grows.refl m, rfl⟩

theorem Steps.trans {first second third : Machine} (one : first.Steps known bindings second)
    (two : second.Steps known bindings third) : first.Steps known bindings third :=
  ⟨two.sound, one.grows.trans two.grows, two.current.trans one.current⟩

/-- A step that stores nothing that was not stored before, except for values that are backed. -/
theorem Sound.steps (sound : m.Sound known bindings) (grows : m.Grows after)
    (current : after.environment.current = m.environment.current)
    (root : after.environment.root = m.environment.root)
    (cells : ∀ id slot value, (after.environment.frame id).get? slot = some value →
      (m.environment.frame id).get? slot = some value ∨ after.Backs known bindings value)
    (globals : ∀ name value, after.environment.globals.get? name = some value →
      m.environment.globals.get? name = some value ∨ after.Backs known bindings value)
    (members : ∀ id name value, (after.classAt id).members.get? name = some value →
      (after.classAt id = m.classAt id) ∨
        after.BacksMember known bindings (after.classAt id).thisSlot value)
    (fields : ∀ id name value, (after.instanceAt id).fields.get? name = some value →
      (m.instanceAt id).fields.get? name = some value ∨ after.Backs known bindings value) :
    m.Steps known bindings after := by
  refine ⟨⟨?_, ?_, ?_, ?_, ?_, ?_⟩, grows, current⟩
  · rw [current]
    exact Nat.lt_of_lt_of_le sound.current grows.frames
  · rw [root]
    exact Nat.lt_of_lt_of_le sound.root grows.frames
  · intro id slot value held
    rcases cells id slot value held with old | backed
    · exact (sound.cells id slot value old).grow grows
    · exact backed
  · intro name value held
    rcases globals name value held with old | backed
    · exact (sound.globals name value old).grow grows
    · exact backed
  · intro id name value held
    rcases members id name value held with same | backed
    · rw [same] at held ⊢
      exact (sound.members id name value held).grow grows
    · exact backed
  · intro id name value held
    rcases fields id name value held with old | backed
    · exact (sound.fields id name value old).grow grows
    · exact backed

theorem grows_setCell (m : Machine) (id : FrameId) (slot : Slot) (value : Value) :
    m.Grows { m with environment := m.environment.setCell id slot value } := by
  refine ⟨Nat.le_refl _, fun _ _ => rfl, Nat.le_of_eq ?_, fun other wanted held => ?_⟩
  · exact (m.environment.size_setCell id slot value).symm
  · rw [Environment.get?_frame_setCell]
    split
    · rfl
    · exact held

theorem grows_defineGlobal (m : Machine) (name : String) (value : Value) :
    m.Grows { m with environment := m.environment.defineGlobal name value } :=
  Grows.of_eq rfl rfl

/-- A cell is written with a value that may be used from then on. -/
theorem Sound.setCell_of_after (sound : m.Sound known bindings) (id : FrameId) (slot : Slot)
    (backs : Backs known bindings { m with environment := m.environment.setCell id slot value }
      value) :
    m.Steps known bindings { m with environment := m.environment.setCell id slot value } := by
  refine sound.steps (m.grows_setCell id slot value) rfl rfl (fun other wanted held found => ?_)
    (fun _ _ => .inl) (fun _ _ _ _ => .inl rfl) fun _ _ _ => .inl
  rw [Environment.get?_frame_setCell] at found
  split at found
  · cases found
    exact .inr backs
  · exact .inl found

theorem Sound.setCell (sound : m.Sound known bindings) (id : FrameId) (slot : Slot)
    (backs : m.Backs known bindings value) :
    m.Steps known bindings { m with environment := m.environment.setCell id slot value } :=
  sound.setCell_of_after id slot (backs.grow (m.grows_setCell id slot value))

/-- What the current frame is given is held by it. -/
theorem Sound.defined (sound : m.Sound known bindings) (slot : Slot) (value : Value) :
    (m.environment.define slot value).Holds m.environment.current slot := by
  refine ⟨m.environment.current.frame, List.mem_cons_self, ?_⟩
  rw [Environment.define, Environment.get?_frame_setCell, if_pos ⟨rfl, sound.current, rfl⟩]
  rfl

theorem Sound.defineGlobal (sound : m.Sound known bindings) (name : String)
    (backs : m.Backs known bindings value) :
    m.Steps known bindings { m with environment := m.environment.defineGlobal name value } := by
  have grows := m.grows_defineGlobal name value
  refine sound.steps grows rfl rfl (fun _ _ _ => .inl) (fun other held found => ?_)
    (fun _ _ _ _ => .inl rfl) fun _ _ _ => .inl
  change (m.environment.globals.insert name value).get? other = some held at found
  rw [Table.get?_insert] at found
  split at found
  · cases found
    exact .inr (backs.grow grows)
  · exact .inl found

theorem Sound.accept (sound : m.Sound known bindings) (output : Sink) :
    m.Steps known bindings { m with output := output } :=
  sound.steps (Grows.of_eq rfl rfl) rfl rfl
    (fun _ _ _ => .inl) (fun _ _ => .inl) (fun _ _ _ _ => .inl rfl) fun _ _ _ => .inl

theorem grows_addFunction (m : Machine) (object : FunctionObject) :
    m.Grows (m.addFunction object).2 := by
  refine ⟨?_, fun id small => ?_, Nat.le_refl _, fun _ _ held => held⟩
  · simp only [addFunction, Array.size_push]
    exact Nat.le_succ _
  · rw [functionAt_addFunction, if_neg (Nat.ne_of_lt small)]

theorem Sound.addFunction (sound : m.Sound known bindings) (object : FunctionObject) :
    m.Steps known bindings (m.addFunction object).2 :=
  sound.steps (m.grows_addFunction object) rfl rfl
    (fun _ _ _ => .inl) (fun _ _ => .inl) (fun _ _ _ _ => .inl rfl) fun _ _ _ => .inl

/-- The value of a function that has been added may be used once the function can run. -/
theorem backs_of_added {object : FunctionObject} (grows : (m.addFunction object).2.Grows after)
    (runs : object.Runs known bindings after.environment) :
    after.Backs known bindings (.function (m.addFunction object).1) := by
  intro id same
  cases same
  have small : m.functions.size < (m.addFunction object).2.functions.size := by
    simp only [Machine.addFunction, Array.size_push]
    exact Nat.lt_succ_self _
  refine ⟨Nat.lt_of_lt_of_le small grows.size, ?_⟩
  change (after.functionAt m.functions.size).Runs known bindings _
  rw [grows.functions _ small, functionAt_addFunction, if_pos rfl]
  exact runs

theorem backs_addFunction {object : FunctionObject}
    (runs : object.Runs known bindings m.environment) :
    (m.addFunction object).2.Backs known bindings (.function (m.addFunction object).1) :=
  backs_of_added (Grows.refl _) runs

theorem backsMember_addFunction {object : FunctionObject} {thisSlot : Option Slot}
    (lacks : object.LacksReceiver known bindings m.environment thisSlot) :
    (m.addFunction object).2.BacksMember known bindings thisSlot
      (.function (m.addFunction object).1) := by
  intro id same
  cases same
  refine ⟨?_, .inr ?_⟩
  · simp only [Machine.addFunction, Array.size_push]
    exact Nat.lt_succ_self _
  · rw [functionAt_addFunction]
    change (if m.functions.size = m.functions.size then object else _).LacksReceiver known bindings
      _ thisSlot
    rw [if_pos rfl]
    exact lacks

theorem Sound.addClass (sound : m.Sound known bindings) (object : ClassObject)
    (backed : ∀ name value, object.members.get? name = some value →
      m.BacksMember known bindings object.thisSlot value) :
    m.Steps known bindings (m.addClass object).2 := by
  have grows : m.Grows (m.addClass object).2 := Grows.of_eq rfl rfl
  refine sound.steps grows rfl rfl (fun _ _ _ => .inl) (fun _ _ => .inl)
    (fun id name value found => ?_) fun _ _ _ => .inl
  rw [classAt_addClass] at found ⊢
  by_cases new : id = m.classes.size
  · rw [if_pos new] at found ⊢
    exact .inr ((backed name value found).grow grows)
  · exact .inl (if_neg new)

theorem Sound.addInstance (sound : m.Sound known bindings) (owner : ClassId) :
    m.Steps known bindings (m.addInstance owner).2 := by
  have grows : m.Grows (m.addInstance owner).2 := Grows.of_eq rfl rfl
  refine sound.steps grows rfl rfl (fun _ _ _ => .inl) (fun _ _ => .inl)
    (fun _ _ _ _ => .inl rfl) fun id name value found => ?_
  rw [instanceAt_addInstance] at found
  split at found
  · cases found
  · exact .inl found

theorem Sound.setField (sound : m.Sound known bindings) (id : InstanceId) (name : String)
    (backs : m.Backs known bindings value) :
    m.Steps known bindings (m.setField id name value) := by
  have grows : m.Grows (m.setField id name value) := Grows.of_eq rfl rfl
  refine sound.steps grows rfl rfl (fun _ _ _ => .inl) (fun _ _ => .inl)
    (fun _ _ _ _ => .inl rfl) fun other wanted held found => ?_
  rw [instanceAt_setField] at found
  split at found
  · rw [Table.get?_insert] at found
    split at found
    · cases found
      exact .inr (backs.grow grows)
    · exact .inl found
  · exact .inl found

theorem grows_push (m : Machine) (cells : Frame) :
    m.Grows { m with environment := m.environment.push cells } := by
  refine ⟨Nat.le_refl _, fun _ _ => rfl, ?_, fun id slot held => ?_⟩
  · simp only [Environment.push, Array.size_push]
    exact Nat.le_succ _
  · rw [Environment.frame_push]
    split
    · next new =>
        rw [new, Environment.frame_of_size_le _ _ (Nat.le_refl _)] at held
        cases held
    · exact held

theorem Sound.push (sound : m.Sound known bindings) (cells : Frame)
    (backed : ∀ slot value, cells.get? slot = some value → m.Backs known bindings value) :
    m.Steps known bindings { m with environment := m.environment.push cells } := by
  have grows := m.grows_push cells
  refine sound.steps grows rfl rfl (fun id slot value found => ?_) (fun _ _ => .inl)
    (fun _ _ _ _ => .inl rfl) fun _ _ _ => .inl
  rw [Environment.frame_push] at found
  split at found
  · exact .inr ((backed slot value found).grow grows)
  · exact .inl found

theorem Sound.restore (sound : m.Sound known bindings) (chain : Chain)
    (inFrames : chain.frame < m.environment.frames.size) :
    Sound known bindings { m with environment := m.environment.restore chain } :=
  ⟨inFrames, sound.root, sound.cells, sound.globals, sound.members, sound.fields⟩

theorem grows_restore (m : Machine) (chain : Chain) :
    m.Grows { m with environment := m.environment.restore chain } :=
  Grows.of_eq rfl rfl

theorem Sound.graft (sound : m.Sound known bindings) (chain : Chain) :
    Sound known bindings { m with environment := m.environment.graft chain } ∧
      m.Grows { m with environment := m.environment.graft chain } := by
  have pushed := sound.push Table.empty fun _ _ impossible => nomatch impossible
  refine ⟨pushed.sound.restore (m.environment.inner chain) ?_, pushed.grows.trans
    (grows_restore _ (m.environment.inner chain))⟩
  simp only [Environment.push, Array.size_push]
  exact Nat.lt_succ_self _

end Machine

namespace Environment

variable {env : Environment} {wider : Chain}

/-- A chain covers a place if a chain within it covers a place where the same names mean the same, and it
holds what else names mean. -/
theorem Covers.extend {other : Path} (covers : env.Covers bindings path chain)
    (wide : ∀ slot, env.Holds chain slot → env.Holds wider slot)
    (means : ∀ name declaration, other.declaration? name = some declaration →
      (name = thisName → other.inField = false) →
        (path.declaration? name = some declaration ∧ (name = thisName → path.inField = false)) ∨
          ∃ slot, bindings.Binds declaration slot ∧ env.Holds wider slot) :
    env.Covers bindings other wider := by
  intro name declaration meant notField
  rcases means name declaration meant notField with ⟨before, outside⟩ | held
  · obtain ⟨slot, bound, holds⟩ := covers name declaration before outside
    exact ⟨slot, bound, wide slot holds⟩
  · exact held

theorem covers_nil (chain : Chain) : env.Covers bindings [] chain := by
  intro name declaration impossible
  cases impossible

theorem Holds.within {slot : Slot} (holds : env.Holds chain slot) (id : FrameId) :
    env.Holds ⟨id, chain.frames⟩ slot := by
  obtain ⟨frame, member, held⟩ := holds
  exact ⟨frame, List.mem_cons_of_mem _ member, held⟩

/-- A step that declares nothing and leads out of no member of a class. -/
theorem Covers.through {step : Step} (covers : env.Covers bindings path chain)
    (noMembers : step.isMembers = false) (noField : step.isField = false)
    (means : ∀ name, Path.declaration? (step :: path) name = path.declaration? name)
    (wide : ∀ slot, env.Holds chain slot → env.Holds wider slot) :
    env.Covers bindings (step :: path) wider := by
  refine covers.extend wide fun name declaration meant notField => ?_
  refine .inl ⟨(means name).symm.trans meant, fun same => ?_⟩
  simpa [noMembers, noField] using notField same

theorem Covers.block (covers : env.Covers bindings path chain) (id : FrameId) :
    env.Covers bindings (.block [] :: path) ⟨id, chain.frames⟩ :=
  covers.through rfl rfl path.declaration?_block fun _ holds => holds.within id

theorem Covers.function (covers : env.Covers bindings path chain) (role : FunctionKind)
    (id : FrameId) : env.Covers bindings (.function role [] [] :: path) ⟨id, chain.frames⟩ :=
  covers.through rfl rfl (fun name => path.declaration?_function name role)
    fun _ holds => holds.within id

theorem Covers.initializer (covers : env.Covers bindings path chain) (id : NodeId) (name : Token) :
    env.Covers bindings (.initializer id name :: path) chain :=
  covers.through rfl rfl (fun wanted => path.declaration?_initializer wanted id name)
    fun _ holds => holds

theorem Covers.param {role : FunctionKind} {param : Param} {earlier : List Param}
    (covers : env.Covers bindings (.function role earlier [] :: path) chain)
    (held : ∃ slot, bindings.Binds param.id slot ∧ env.Holds chain slot) :
    env.Covers bindings (.function role (param :: earlier) [] :: path) chain := by
  refine covers.extend (fun _ holds => holds) fun name declaration meant notField => ?_
  rw [Path.declaration?_param] at meant
  split at meant
  · cases meant
    exact .inr held
  · exact .inl ⟨meant, fun same => by simpa [Step.isMembers, Step.isField] using notField same⟩

theorem Covers.own (covers : env.Covers bindings path chain) {id : NodeId} (name : Token)
    (held : path.isLocal = true → ∃ slot, bindings.Binds id slot ∧ env.Holds chain slot) :
    env.Covers bindings (.own id name :: path) chain := by
  refine covers.extend (fun _ holds => holds) fun wanted declaration meant notField => ?_
  rw [Path.declaration?_own] at meant
  split at meant
  · next inScope =>
      cases meant
      exact .inr (held inScope.1)
  · exact .inl ⟨meant, fun same => by simpa [Step.isMembers, Step.isField] using notField same⟩

theorem Covers.members (covers : env.Covers bindings path chain) {thisId : NodeId} {slot : Slot}
    (bound : bindings.slot? thisId = some slot)
    (wide : ∀ slot, env.Holds chain slot → env.Holds wider slot) (holds : env.Holds wider slot) :
    env.Covers bindings (.members thisId :: path) wider := by
  refine covers.extend wide fun name declaration meant _ => ?_
  rw [Path.declaration?_members] at meant
  split at meant
  · cases meant
    exact .inr ⟨slot, bound, holds⟩
  · next other => exact .inl ⟨meant, fun same => absurd same.symm other⟩

theorem Covers.field (covers : env.Covers bindings path chain) (thisId : NodeId) :
    env.Covers bindings (.field :: .members thisId :: path) chain := by
  refine covers.extend (fun _ holds => holds) fun name declaration meant notField => ?_
  have other : name ≠ thisName := by
    intro same
    have impossible := notField same
    simp [Step.isMembers, Step.isField] at impossible
  rw [Path.declaration?_field, Path.declaration?_members,
    if_neg fun same => other same.symm] at meant
  exact .inl ⟨meant, fun same => absurd same other⟩

theorem Covers.past_nil (covers : env.Covers bindings path chain) {s : Stmt}
    (holds : path.holdsStatements = true) (declared : s.declared = []) :
    env.Covers bindings (path.past s) chain := by
  refine covers.extend (fun _ holds => holds) fun name declaration meant notField => ?_
  rw [Path.declaration?_past_nil name holds declared] at meant
  rw [Path.inField_past] at notField
  exact .inl ⟨meant, notField⟩

theorem Covers.past (covers : env.Covers bindings path chain) {s : Stmt} {id : NodeId}
    {own : String} (holds : path.holdsStatements = true) (declared : s.declared = [⟨id, own, false⟩])
    (held : path.isLocal = true → ∃ slot, bindings.Binds id slot ∧ env.Holds chain slot) :
    env.Covers bindings (path.past s) chain := by
  refine covers.extend (fun _ holds => holds) fun name declaration meant notField => ?_
  rw [Path.declaration?_past name holds declared] at meant
  rw [Path.inField_past] at notField
  split at meant
  · next inScope =>
      cases meant
      exact .inr (held inScope.1)
  · exact .inl ⟨meant, notField⟩

end Environment

namespace Machine

theorem Sound.bindFunction (sound : m.Sound known bindings) {id : FunctionId} {slot : Slot}
    (receiver : InstanceId)
    (backs : m.BacksMember known bindings (some slot) (.function id)) :
    m.Steps known bindings (m.bindFunction id receiver slot).2 ∧
      (m.bindFunction id receiver slot).2.Backs known bindings
        (.function (m.bindFunction id receiver slot).1) := by
  have pushed := sound.push (Environment.cell slot (.instance receiver)) fun wanted value found => by
    change (Table.empty.insert slot (Value.instance receiver)).get? wanted = some value at found
    rw [Table.get?_insert] at found
    split at found
    · cases found
      exact backs_instance receiver
    · cases found
  refine ⟨pushed.trans (pushed.sound.addFunction _), backs_addFunction ?_⟩
  have wide : ∀ wanted, (m.environment.push (Environment.cell slot (.instance receiver))).Holds
      (m.functionAt id).closure wanted →
      (m.environment.push (Environment.cell slot (.instance receiver))).Holds
        (m.environment.inner (m.functionAt id).closure) wanted :=
    fun wanted holds => holds.within m.environment.frames.size
  obtain ⟨-, runs | lacks⟩ := backs id rfl
  · obtain ⟨path, role, sites, regular, covers⟩ := runs
    exact ⟨path, role, sites, regular,
      (covers.grow pushed.grows).extend wide fun _ _ meant notField => .inl ⟨meant, notField⟩⟩
  · obtain ⟨path, role, thisId, own, same, bound, sites, regular, covers⟩ := lacks
    cases same
    refine ⟨.members thisId :: path, role, sites, regular,
      (covers.grow pushed.grows).members bound wide ?_⟩
    refine ⟨m.environment.frames.size, List.mem_cons_self, ?_⟩
    rw [Environment.frame_push, if_pos rfl]
    change ((Table.empty.insert slot (Value.instance receiver)).get? slot).isSome = true
    rw [Table.get?_insert, if_pos rfl]
    rfl

end Machine
end Lox
