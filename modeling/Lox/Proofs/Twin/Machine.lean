import Lox.Proofs.Machine.Guarded
import Lox.Proofs.Machine.Cells
import Lox.Proofs.Twin.Tokens

set_option autoImplicit false

/-! Two machines that do the same. Their objects, frames and global variables are the same, apart from the
numbers of nodes and slots and from where the source of a function stands. -/

namespace Lox

/-- Nodes, nodes of hidden variables, slots, and positions in the texts that mean the same in two
sessions. -/
structure Correspondence where
  nodes : NodeId → NodeId → Prop
  hidden : NodeId → NodeId → Prop
  slots : Slot → Slot → Prop
  positions : Nat → Nat → Prop

namespace Correspondence

def likeness (w : Correspondence) : Likeness where
  token := Token.Twin w.positions
  named id name other otherName := w.nodes id other ∧ Token.Twin w.positions name otherName
  node := w.nodes
  hidden := w.hidden

structure Le (w more : Correspondence) : Prop where
  nodes : ∀ id other, w.nodes id other → more.nodes id other
  hidden : ∀ id other, w.hidden id other → more.hidden id other
  slots : ∀ slot slot', w.slots slot slot' → more.slots slot slot'
  positions : ∀ p q, w.positions p q → more.positions p q

variable {w more : Correspondence}

theorem Le.likeness (le : w.Le more) : w.likeness.Le more.likeness where
  token _ _ twin := twin.mono le.positions
  named _ _ _ _ both := ⟨le.nodes _ _ both.1, both.2.mono le.positions⟩
  node := le.nodes
  hidden := le.hidden

/-- Corresponding nodes have corresponding slots, and slots correspond one to one. -/
structure Binds (w : Correspondence) (one two : Bindings) : Prop where
  nodes : ∀ id other, w.nodes id other → Option.Rel w.slots (one.slot? id) (two.slot? other)
  hidden : ∀ id other, w.hidden id other → ∃ slot slot', one.slot? id = some slot ∧
    two.slot? other = some slot' ∧ w.slots slot slot'
  injective : ∀ slot slot' wanted wanted', w.slots slot slot' → w.slots wanted wanted' →
    (slot = wanted ↔ slot' = wanted')

theorem Binds.both {one two : Bindings} (binds : w.Binds one two) {id other : NodeId}
    (nodes : w.nodes id other) :
    (∃ slot slot', one.slot? id = some slot ∧ two.slot? other = some slot' ∧ w.slots slot slot') ∨
      (one.slot? id = none ∧ two.slot? other = none) := by
  have slots := binds.nodes id other nodes
  generalize one.slot? id = slot at slots ⊢
  generalize two.slot? other = slot' at slots ⊢
  cases slots with
  | none => exact .inr ⟨rfl, rfl⟩
  | some pair => exact .inl ⟨_, _, rfl, rfl, pair⟩

end Correspondence

/-- Two sinks that take everything and have taken the same since they began. -/
structure Sink.Echo (start start' now now' : Sink) : Prop where
  endless : now.limit = none
  endless' : now'.limit = none
  flushes : now.flushFails = false
  flushes' : now'.flushFails = false
  same : ∃ bytes, now.accepted = start.accepted ++ bytes ∧ now'.accepted = start'.accepted ++ bytes

section

variable (w : Correspondence)

structure Environment.Twin (one two : Environment) : Prop where
  size : one.frames.size = two.frames.size
  cells : ∀ id slot slot', w.slots slot slot' →
    (one.frame id).get? slot = (two.frame id).get? slot'
  known : ∀ id slot, ((one.frame id).get? slot).isSome = true → ∃ slot', w.slots slot slot'
  known' : ∀ id slot', ((two.frame id).get? slot').isSome = true → ∃ slot, w.slots slot slot'
  current : one.current = two.current
  root : one.root = two.root
  globals : one.globals = two.globals

structure FunctionObject.Twin (f g : FunctionObject) : Prop where
  decl : FunctionDecl.Like w.likeness f.decl g.decl
  closure : f.closure = g.closure
  receiver : f.receiver = g.receiver

structure ClassObject.Twin (c d : ClassObject) : Prop where
  name : c.name = d.name
  members : c.members = d.members
  thisSlot : Option.Rel w.slots c.thisSlot d.thisSlot

structure Machine.Twin (start start' : Sink) (m n : Machine) : Prop where
  environment : Environment.Twin w m.environment n.environment
  functionCount : m.functions.size = n.functions.size
  functions : ∀ id, FunctionObject.Twin w (m.functionAt id) (n.functionAt id)
  classCount : m.classes.size = n.classes.size
  classes : ∀ id, ClassObject.Twin w (m.classAt id) (n.classAt id)
  instances : m.instances = n.instances
  depth : m.depth = n.depth
  output : Sink.Echo start start' m.output n.output

end

namespace Sink.Echo

variable {start start' now now' : Sink}

theorem refl {sink sink' : Sink} (endless : sink.limit = none) (endless' : sink'.limit = none)
    (flushes : sink.flushFails = false) (flushes' : sink'.flushFails = false) :
    Sink.Echo sink sink' sink sink' := by
  refine ⟨endless, endless', flushes, flushes', ByteArray.empty, ?_, ?_⟩
  · exact ByteArray.append_empty.symm
  · exact ByteArray.append_empty.symm

theorem accept (echo : Sink.Echo start start' now now') (text : String) :
    Sink.Echo start start' (now.accept text) (now'.accept text) := by
  obtain ⟨bytes, one, two⟩ := echo.same
  have room : now.room? = none := by rw [room?, echo.endless]; rfl
  have room' : now'.room? = none := by rw [room?, echo.endless']; rfl
  unfold Sink.accept
  rw [room, room']
  refine ⟨echo.endless, echo.endless', echo.flushes, echo.flushes', bytes ++ text.toUTF8, ?_, ?_⟩
  · change now.accepted ++ text.toUTF8 = _
    rw [one, ByteArray.append_assoc]
  · change now'.accepted ++ text.toUTF8 = _
    rw [two, ByteArray.append_assoc]

theorem failure (echo : Sink.Echo start start' now now') (text : String) :
    now.failure? text = none ∧ now'.failure? text = none := by
  have room : now.room? = none := by rw [room?, echo.endless]; rfl
  have room' : now'.room? = none := by rw [room?, echo.endless']; rfl
  unfold Sink.failure?
  rw [room, room']
  exact ⟨rfl, rfl⟩

/-- What has been taken since the beginning is the same text. -/
theorem textFrom (echo : Sink.Echo start start' now now') :
    now.textFrom start.accepted.size = now'.textFrom start'.accepted.size := by
  obtain ⟨bytes, one, two⟩ := echo.same
  unfold Sink.textFrom
  rw [one, two, ByteArray.extract_append_eq_right rfl ByteArray.size_append,
    ByteArray.extract_append_eq_right rfl ByteArray.size_append]

end Sink.Echo

namespace Environment.Twin

variable {w : Correspondence} {one two : Environment}

theorem contains_eq (twin : Environment.Twin w one two) (id : FrameId) {slot slot' : Slot}
    (slots : w.slots slot slot') :
    (one.frame id).contains slot = (two.frame id).contains slot' :=
  congrArg Option.isSome (twin.cells id slot slot' slots)

theorem find?_eq (twin : Environment.Twin w one two) {slot slot' : Slot} (slots : w.slots slot slot')
    (chain : Chain) : one.find? chain slot = two.find? chain slot' := by
  unfold Environment.find?
  congr 1
  funext id
  exact twin.contains_eq id slots

theorem get?_eq (twin : Environment.Twin w one two) {slot slot' : Slot}
    (slots : w.slots slot slot') : one.get? slot = two.get? slot' := by
  unfold Environment.get? Environment.read?
  rw [twin.current]
  congr 1
  funext id
  exact twin.cells id slot slot' slots

/-- What changes neither cells nor chains nor global variables makes no difference. -/
theorem setCell (twin : Environment.Twin w one two)
    (injective : ∀ slot slot' wanted wanted', w.slots slot slot' → w.slots wanted wanted' →
      (slot = wanted ↔ slot' = wanted')) (id : FrameId) {slot slot' : Slot}
    (slots : w.slots slot slot') (value : Value) :
    Environment.Twin w (one.setCell id slot value) (two.setCell id slot' value) where
  size := by rw [size_setCell, size_setCell, twin.size]
  cells other wanted wanted' pair := by
    rw [get?_frame_setCell, get?_frame_setCell, twin.size, twin.cells other wanted wanted' pair]
    simp only [injective slot slot' wanted wanted' slots pair]
  known other wanted held := by
    rw [get?_frame_setCell] at held
    split at held
    · next here => exact ⟨slot', here.2.2 ▸ slots⟩
    · exact twin.known other wanted held
  known' other wanted' held := by
    rw [get?_frame_setCell] at held
    split at held
    · next here => exact ⟨slot, here.2.2 ▸ slots⟩
    · exact twin.known' other wanted' held
  current := twin.current
  root := twin.root
  globals := twin.globals

theorem pushEmpty (twin : Environment.Twin w one two) :
    Environment.Twin w (one.push Table.empty) (two.push Table.empty) where
  size := by
    unfold Environment.push
    rw [Array.size_push, Array.size_push, twin.size]
  cells id slot slot' slots := by
    rw [frame_push, frame_push, twin.size]
    split
    · rfl
    · exact twin.cells id slot slot' slots
  known id slot held := by
    rw [frame_push] at held
    split at held
    · cases held
    · exact twin.known id slot held
  known' id slot' held := by
    rw [frame_push] at held
    split at held
    · cases held
    · exact twin.known' id slot' held
  current := twin.current
  root := twin.root
  globals := twin.globals

theorem inner (twin : Environment.Twin w one two) (chain : Chain) :
    one.inner chain = two.inner chain := by
  unfold Environment.inner
  rw [twin.size]

theorem at_chain (twin : Environment.Twin w one two) (chain : Chain) :
    Environment.Twin w { one with current := chain } { two with current := chain } :=
  ⟨twin.size, twin.cells, twin.known, twin.known', rfl, twin.root, twin.globals⟩

theorem graft (twin : Environment.Twin w one two) (chain : Chain) :
    Environment.Twin w (one.graft chain) (two.graft chain) := by
  unfold Environment.graft
  rw [twin.inner chain]
  exact twin.pushEmpty.at_chain _

theorem defineGlobal (twin : Environment.Twin w one two) (name : String) (value : Value) :
    Environment.Twin w (one.defineGlobal name value) (two.defineGlobal name value) :=
  ⟨twin.size, twin.cells, twin.known, twin.known', twin.current, twin.root,
    congrArg (·.insert name value) twin.globals⟩

/-- A new frame that holds one cell. -/
theorem pushCell (twin : Environment.Twin w one two)
    (injective : ∀ slot slot' wanted wanted', w.slots slot slot' → w.slots wanted wanted' →
      (slot = wanted ↔ slot' = wanted')) {slot slot' : Slot} (slots : w.slots slot slot')
    (value : Value) :
    Environment.Twin w (one.push (cell slot value)) (two.push (cell slot' value)) := by
  have made := twin.pushEmpty.setCell injective one.frames.size slots value
  have same (env : Environment) (slot : Slot) (id : FrameId) :=
    frame_push_cell env id slot value
  refine ⟨?_, fun id wanted wanted' pair => ?_, fun id wanted held => ?_, fun id wanted' held => ?_,
    twin.current, twin.root, twin.globals⟩
  · unfold Environment.push
    rw [Array.size_push, Array.size_push, twin.size]
  · have cells := made.cells id wanted wanted' pair
    rw [same, same, ← twin.size]
    exact cells
  · rw [same] at held
    exact made.known id wanted held
  · rw [same, ← twin.size] at held
    exact made.known' id wanted' held

end Environment.Twin

theorem FunctionObject.Twin.default_twin (w : Correspondence) :
    FunctionObject.Twin w default default :=
  ⟨.mk .none .nil .nil, rfl, rfl⟩

namespace Machine.Twin

variable {w : Correspondence} {start start' : Sink} {m n : Machine}

theorem withEnvironment (twin : Machine.Twin w start start' m n) {env env' : Environment}
    (environments : Environment.Twin w env env') :
    Machine.Twin w start start' { m with environment := env } { n with environment := env' } :=
  ⟨environments, twin.functionCount, twin.functions, twin.classCount, twin.classes, twin.instances,
    twin.depth, twin.output⟩

theorem atDepth (twin : Machine.Twin w start start' m n) {depth depth' : Nat}
    (same : depth = depth') :
    Machine.Twin w start start' { m with depth := depth } { n with depth := depth' } :=
  ⟨twin.environment, twin.functionCount, twin.functions, twin.classCount, twin.classes,
    twin.instances, same, twin.output⟩

theorem accept (twin : Machine.Twin w start start' m n) (text : String) :
    Machine.Twin w start start' { m with output := m.output.accept text }
      { n with output := n.output.accept text } :=
  ⟨twin.environment, twin.functionCount, twin.functions, twin.classCount, twin.classes,
    twin.instances, twin.depth, twin.output.accept text⟩

theorem addFunction (twin : Machine.Twin w start start' m n) {f g : FunctionObject}
    (objects : FunctionObject.Twin w f g) :
    (m.addFunction f).1 = (n.addFunction g).1 ∧
      Machine.Twin w start start' (m.addFunction f).2 (n.addFunction g).2 := by
  refine ⟨twin.functionCount, twin.environment, ?_, fun id => ?_, twin.classCount, twin.classes,
    twin.instances, twin.depth, twin.output⟩
  · unfold Machine.addFunction
    rw [Array.size_push, Array.size_push, twin.functionCount]
  · rw [functionAt_addFunction, functionAt_addFunction, twin.functionCount]
    split
    · exact objects
    · exact twin.functions id

theorem addClass (twin : Machine.Twin w start start' m n) {c d : ClassObject}
    (objects : ClassObject.Twin w c d) :
    (m.addClass c).1 = (n.addClass d).1 ∧
      Machine.Twin w start start' (m.addClass c).2 (n.addClass d).2 := by
  refine ⟨twin.classCount, twin.environment, twin.functionCount, twin.functions, ?_, fun id => ?_,
    twin.instances, twin.depth, twin.output⟩
  · unfold Machine.addClass
    rw [Array.size_push, Array.size_push, twin.classCount]
  · rw [classAt_addClass, classAt_addClass, twin.classCount]
    split
    · exact objects
    · exact twin.classes id

theorem addInstance (twin : Machine.Twin w start start' m n) (owner : ClassId) :
    (m.addInstance owner).1 = (n.addInstance owner).1 ∧
      Machine.Twin w start start' (m.addInstance owner).2 (n.addInstance owner).2 := by
  refine ⟨congrArg Array.size twin.instances, twin.environment, twin.functionCount, twin.functions,
    twin.classCount, twin.classes, ?_, twin.depth, twin.output⟩
  exact congrArg (·.push ⟨owner, Table.empty⟩) twin.instances

theorem setField (twin : Machine.Twin w start start' m n) (id : InstanceId) (name : String)
    (value : Value) :
    Machine.Twin w start start' (m.setField id name value) (n.setField id name value) := by
  refine ⟨twin.environment, twin.functionCount, twin.functions, twin.classCount, twin.classes, ?_,
    twin.depth, twin.output⟩
  unfold Machine.setField
  rw [twin.instances]

theorem instanceAt_eq (twin : Machine.Twin w start start' m n) (id : InstanceId) :
    m.instanceAt id = n.instanceAt id := by
  unfold Machine.instanceAt
  rw [twin.instances]

theorem bindFunction (twin : Machine.Twin w start start' m n)
    (injective : ∀ slot slot' wanted wanted', w.slots slot slot' → w.slots wanted wanted' →
      (slot = wanted ↔ slot' = wanted')) (id : FunctionId) (receiver : InstanceId)
    {slot slot' : Slot} (slots : w.slots slot slot') :
    (m.bindFunction id receiver slot).1 = (n.bindFunction id receiver slot').1 ∧
      Machine.Twin w start start' (m.bindFunction id receiver slot).2
        (n.bindFunction id receiver slot').2 := by
  have object := twin.functions id
  have pushed := twin.withEnvironment
    (twin.environment.pushCell injective slots (.instance receiver))
  unfold Machine.bindFunction
  refine pushed.addFunction ⟨object.decl, ?_, rfl⟩
  change m.environment.inner _ = n.environment.inner _
  rw [object.closure, twin.environment.inner]

end Machine.Twin

namespace FunctionObject.Twin

variable {w : Correspondence} {f g : FunctionObject}

theorem isInitializer_eq (twin : FunctionObject.Twin w f g) : f.isInitializer = g.isInitializer := by
  unfold FunctionObject.isInitializer
  rw [twin.decl.kind_eq]

theorem arity_eq (twin : FunctionObject.Twin w f g) : f.arity = g.arity := by
  obtain ⟨decl, -, -⟩ := twin
  unfold FunctionObject.arity
  generalize f.decl = one at decl ⊢
  generalize g.decl = two at decl ⊢
  cases decl with
  | mk names parameters bodies => exact parameters.length_eq

theorem text_eq (twin : FunctionObject.Twin w f g) : f.text = g.text := by
  obtain ⟨decl, -, -⟩ := twin
  unfold FunctionObject.text
  generalize f.decl = one at decl ⊢
  generalize g.decl = two at decl ⊢
  cases decl with
  | mk names parameters bodies =>
      cases names with
      | none => rfl
      | some same =>
          simp only [FunctionDecl.name]
          rw [same.lexeme]

end FunctionObject.Twin

namespace Machine.Twin

variable {w : Correspondence} {start start' : Sink} {m n : Machine}

theorem initializer?_eq (twin : Machine.Twin w start start' m n) {c d : ClassObject}
    (objects : ClassObject.Twin w c d) : m.initializer? c = n.initializer? d := by
  unfold Machine.initializer?
  rw [objects.members]
  split
  · rw [(twin.functions _).isInitializer_eq]
  · rfl

theorem arityOfClass_eq (twin : Machine.Twin w start start' m n) {c d : ClassObject}
    (objects : ClassObject.Twin w c d) : m.arityOfClass c = n.arityOfClass d := by
  unfold Machine.arityOfClass
  rw [twin.initializer?_eq objects]
  split
  · exact (twin.functions _).arity_eq
  · rfl

theorem text_eq (twin : Machine.Twin w start start' m n) (value : Value) :
    m.text value = n.text value := by
  cases value with
  | function id => exact (twin.functions id).text_eq
  | «class» id => exact (twin.classes id).name
  | «instance» id =>
      change (m.classAt (m.instanceAt id).owner).name ++ _ =
        (n.classAt (n.instanceAt id).owner).name ++ _
      rw [twin.instanceAt_eq id, (twin.classes _).name]
  | bool value => cases value <;> rfl
  | _ => rfl

/-- Reading a property binds the same function to the same instance. -/
theorem getProperty (twin : Machine.Twin w start start' m n)
    (injective : ∀ slot slot' wanted wanted', w.slots slot slot' → w.slots wanted wanted' →
      (slot = wanted ↔ slot' = wanted')) (id : InstanceId) (name : String) :
    (m.getProperty id name).1 = (n.getProperty id name).1 ∧
      Machine.Twin w start start' (m.getProperty id name).2 (n.getProperty id name).2 := by
  unfold Machine.getProperty
  rw [twin.instanceAt_eq id]
  dsimp only
  cases (n.instanceAt id).fields.get? name with
  | some value => exact ⟨rfl, twin⟩
  | none =>
      have owner := twin.classes (n.instanceAt id).owner
      dsimp only
      rw [owner.members]
      generalize (m.classAt (n.instanceAt id).owner).thisSlot = slot, owner.thisSlot = slots
      generalize (n.classAt (n.instanceAt id).owner).thisSlot = slot' at slots ⊢
      cases (n.classAt (n.instanceAt id).owner).members.get? name with
      | none => cases slots <;> exact ⟨rfl, twin⟩
      | some member =>
          cases member with
          | function f =>
              cases slots with
              | none => exact ⟨rfl, twin⟩
              | some pair =>
                  obtain ⟨same, bound⟩ := twin.bindFunction injective f id pair
                  exact ⟨congrArg (fun id => some (Value.function id)) same, bound⟩
          | _ => cases slots <;> exact ⟨rfl, twin⟩

end Machine.Twin

section

variable {w more : Correspondence}

/-- More slots correspond than before, but none of those that did. -/
structure Correspondence.Extends (w more : Correspondence) : Prop where
  le : w.Le more
  slots : ∀ slot slot', more.slots slot slot' → w.slots slot slot' ∨
    (¬∃ other, w.slots slot other) ∧ ¬∃ other, w.slots other slot'

/-- Slots that no frame holds make no difference. -/
theorem Environment.Twin.extend {one two : Environment} (twin : Environment.Twin w one two)
    (grown : w.Extends more) : Environment.Twin more one two where
  size := twin.size
  cells id slot slot' slots := by
    rcases grown.slots slot slot' slots with old | ⟨fresh, fresh'⟩
    · exact twin.cells id slot slot' old
    · have here : (one.frame id).get? slot = none := by
        by_contra held
        exact fresh (twin.known id slot (Option.isSome_iff_ne_none.mpr held))
      have there : (two.frame id).get? slot' = none := by
        by_contra held
        exact fresh' (twin.known' id slot' (Option.isSome_iff_ne_none.mpr held))
      rw [here, there]
  known id slot held := by
    obtain ⟨slot', slots⟩ := twin.known id slot held
    exact ⟨slot', grown.le.slots _ _ slots⟩
  known' id slot' held := by
    obtain ⟨slot, slots⟩ := twin.known' id slot' held
    exact ⟨slot, grown.le.slots _ _ slots⟩
  current := twin.current
  root := twin.root
  globals := twin.globals

theorem FunctionObject.Twin.mono {f g : FunctionObject} (twin : FunctionObject.Twin w f g)
    (le : w.Le more) : FunctionObject.Twin more f g :=
  ⟨twin.decl.mono le.likeness, twin.closure, twin.receiver⟩

theorem ClassObject.Twin.mono {c d : ClassObject} (twin : ClassObject.Twin w c d)
    (le : w.Le more) : ClassObject.Twin more c d := by
  refine ⟨twin.name, twin.members, ?_⟩
  have slots := twin.thisSlot
  generalize c.thisSlot = slot at slots ⊢
  generalize d.thisSlot = slot' at slots ⊢
  cases slots with
  | none => exact .none
  | some pair => exact .some (le.slots _ _ pair)

variable {start start' : Sink} {m n : Machine}

theorem Machine.Twin.extend (twin : Machine.Twin w start start' m n) (grown : w.Extends more) :
    Machine.Twin more start start' m n :=
  ⟨twin.environment.extend grown, twin.functionCount,
    fun id => (twin.functions id).mono grown.le, twin.classCount,
    fun id => (twin.classes id).mono grown.le, twin.instances, twin.depth, twin.output⟩

end
end Lox
