import Lox.Proofs.Loop.Pairing
import Lox.Proofs.Switch.Operations
import Lox.Proofs.Tandem.Agreement

set_option autoImplicit false

/-! Machines that differ in void frames alone. They have the same variables, objects and output, and the
chains of their functions pass the same frames but for void ones; so whatever code both run, it does the
same on both. -/

namespace Lox

variable {proper : ClassDecl → Prop} {p q : Pairing} {m n m' n' : Machine}

/-- One function, on chains that are the same but for void frames. -/
structure FunctionObject.Mirrors (proper : ClassDecl → Prop) (p : Pairing) (f g : FunctionObject) :
    Prop where
  decl : g.decl = f.decl
  receiver : g.receiver = f.receiver
  closure : p.Aligned f.closure.frames g.closure.frames
  orderly : Orderly.function proper f.decl

namespace Machine

structure Mirrors (proper : ClassDecl → Prop) (p : Pairing) (m n : Machine) : Prop where
  frames : p.Fits m.environment n.environment
  current : p.Aligned m.environment.current.frames n.environment.current.frames
  origin : p.both 0 0
  root : m.environment.root = ⟨0, []⟩ ∧ n.environment.root = ⟨0, []⟩
  globals : n.environment.globals = m.environment.globals
  count : n.functions.size = m.functions.size
  functions : ∀ id, FunctionObject.Mirrors proper p (m.functionAt id) (n.functionAt id)
  classes : n.classes = m.classes
  instances : n.instances = m.instances
  depth : n.depth = m.depth
  output : n.output = m.output

end Machine

/-- Two runs on machines that differ in void frames alone. -/
def Machine.mirrors (proper : ClassDecl → Prop) : Bond Pairing Machine Machine where
  agree w := w.left.Mirrors proper w.ghost w.right
  later w after := w.ghost.Grows after.ghost ∧
    after.left.environment.current = w.left.environment.current ∧
    after.right.environment.current = w.right.environment.current
  has _ _ := True
  opens w := w.ghost.both w.left.environment.current.frame w.right.environment.current.frame
  refl w := ⟨.refl _, rfl, rfl⟩
  trans one two := ⟨one.1.trans two.1, two.2.1.trans one.2.1, two.2.2.trans one.2.2⟩
  keeps _ _ := trivial
  stays := by
    rintro w after ⟨grows, left, right⟩ opens
    rw [left, right]
    exact grows.both opens
  data _ _ _ := trivial

/-- Two results on machines that differ in void frames alone. -/
abbrev Exec.Mirrored {α : Type} (proper : ClassDecl → Prop) (p : Pairing) (m n : Machine)
    (one two : EStateM.Result Stop Machine α) : Prop :=
  Concurs (Machine.mirrors proper) ⟨p, m, n⟩ Bond.any one two

namespace Machine.Mirrors

/-- Both run on in other environments. -/
theorem environments (mirrors : m.Mirrors proper p n) {e f : Environment} (grows : p.Grows q)
    (frames : q.Fits e f) (current : q.Aligned e.current.frames f.current.frames)
    (roots : e.root = m.environment.root ∧ f.root = n.environment.root) (globals : f.globals = e.globals) :
    Mirrors proper q { m with environment := e } { n with environment := f } where
  frames := frames
  current := current
  origin := grows.both mirrors.origin
  root := ⟨roots.1.trans mirrors.root.1, roots.2.trans mirrors.root.2⟩
  globals := globals
  count := mirrors.count
  functions id := { mirrors.functions id with closure := (mirrors.functions id).closure.grow grows }
  classes := mirrors.classes
  instances := mirrors.instances
  depth := mirrors.depth
  output := mirrors.output

theorem classAt (mirrors : m.Mirrors proper p n) (id : ClassId) : n.classAt id = m.classAt id := by
  rw [Machine.classAt, mirrors.classes]
  rfl

theorem instanceAt (mirrors : m.Mirrors proper p n) (id : InstanceId) : n.instanceAt id = m.instanceAt id := by
  rw [Machine.instanceAt, mirrors.instances]
  rfl

theorem isInitializer (mirrors : m.Mirrors proper p n) (id : FunctionId) :
    (n.functionAt id).isInitializer = (m.functionAt id).isInitializer := by
  unfold FunctionObject.isInitializer
  rw [(mirrors.functions id).decl]

theorem arity (mirrors : m.Mirrors proper p n) (id : FunctionId) :
    (n.functionAt id).arity = (m.functionAt id).arity := by
  unfold FunctionObject.arity
  rw [(mirrors.functions id).decl]

theorem initializer? (mirrors : m.Mirrors proper p n) (object : ClassObject) :
    n.initializer? object = m.initializer? object := by
  unfold Machine.initializer?
  simp only [mirrors.isInitializer]

theorem arityOfClass (mirrors : m.Mirrors proper p n) (object : ClassObject) :
    n.arityOfClass object = m.arityOfClass object := by
  unfold Machine.arityOfClass
  simp only [mirrors.initializer?, mirrors.arity]

theorem text (mirrors : m.Mirrors proper p n) (value : Value) : n.text value = m.text value := by
  cases value with
  | function id =>
    unfold Machine.text FunctionObject.text
    dsimp only
    rw [(mirrors.functions id).decl]
  | «class» id =>
    unfold Machine.text
    dsimp only
    rw [mirrors.classAt]
  | «instance» id =>
    unfold Machine.text
    dsimp only
    rw [mirrors.instanceAt, mirrors.classAt]
  | bool b => cases b <;> rfl
  | _ => rfl

theorem setCell (mirrors : m.Mirrors proper p n) {i j : FrameId} (pair : p.both i j) (slot : Slot)
    (value : Value) :
    Mirrors proper p { m with environment := m.environment.setCell i slot value }
      { n with environment := n.environment.setCell j slot value } :=
  mirrors.environments (.refl p) (mirrors.frames.setCell pair slot value) mirrors.current ⟨rfl, rfl⟩
    mirrors.globals

theorem defineGlobal (mirrors : m.Mirrors proper p n) (name : String) (value : Value) :
    Mirrors proper p { m with environment := m.environment.defineGlobal name value }
      { n with environment := n.environment.defineGlobal name value } := by
  refine mirrors.environments (.refl p) (mirrors.frames.of_frames rfl rfl) mirrors.current ⟨rfl, rfl⟩ ?_
  unfold Environment.defineGlobal
  rw [mirrors.globals]

theorem push (mirrors : m.Mirrors proper p n) (cells : Frame) :
    Mirrors proper (p.addBoth m.environment.frames.size n.environment.frames.size)
      { m with environment := m.environment.push cells }
      { n with environment := n.environment.push cells } :=
  mirrors.environments (p.grows_addBoth _ _) (mirrors.frames.pushBoth cells)
    (mirrors.current.grow (p.grows_addBoth _ _)) ⟨rfl, rfl⟩ mirrors.globals

/-- The chains of the next new frames, which belong together. -/
theorem aligned_inner {c d : Chain} (aligned : p.Aligned c.frames d.frames) :
    (p.addBoth m.environment.frames.size n.environment.frames.size).Aligned
      (m.environment.inner c).frames (n.environment.inner d).frames :=
  .both (.inr ⟨rfl, rfl⟩) (aligned.grow (p.grows_addBoth _ _))

theorem graft (mirrors : m.Mirrors proper p n) {c d : Chain} (aligned : p.Aligned c.frames d.frames) :
    Mirrors proper (p.addBoth m.environment.frames.size n.environment.frames.size)
      { m with environment := m.environment.graft c }
      { n with environment := n.environment.graft d } :=
  mirrors.environments (p.grows_addBoth _ _) ((mirrors.frames.pushBoth Table.empty).of_frames rfl rfl)
    (aligned_inner aligned) ⟨rfl, rfl⟩ mirrors.globals

theorem restored (mirrors : m.Mirrors proper p n) {c d : Chain} (aligned : p.Aligned c.frames d.frames) :
    Mirrors proper p (m.restored c) (n.restored d) :=
  mirrors.environments (.refl p) (mirrors.frames.of_frames rfl rfl) aligned ⟨rfl, rfl⟩ mirrors.globals

theorem addFunction (mirrors : m.Mirrors proper p n) {f g : FunctionObject}
    (own : FunctionObject.Mirrors proper p f g) :
    (m.addFunction f).2.Mirrors proper p (n.addFunction g).2 where
  frames := mirrors.frames
  current := mirrors.current
  origin := mirrors.origin
  root := mirrors.root
  globals := mirrors.globals
  count := by
    unfold Machine.addFunction
    rw [Array.size_push, Array.size_push, mirrors.count]
  functions id := by
    rw [functionAt_addFunction, functionAt_addFunction, mirrors.count]
    by_cases new : id = m.functions.size
    · rw [if_pos new, if_pos new]
      exact own
    · rw [if_neg new, if_neg new]
      exact mirrors.functions id
  classes := mirrors.classes
  instances := mirrors.instances
  depth := mirrors.depth
  output := mirrors.output

/-- A change to objects and output alone. -/
theorem objects (mirrors : m.Mirrors proper p n) {one two : Machine}
    (left : one.environment = m.environment ∧ one.functions = m.functions)
    (right : two.environment = n.environment ∧ two.functions = n.functions)
    (classes : two.classes = one.classes) (instances : two.instances = one.instances)
    (depth : two.depth = one.depth) (output : two.output = one.output) : one.Mirrors proper p two where
  frames := by
    rw [left.1, right.1]
    exact mirrors.frames
  current := by
    rw [left.1, right.1]
    exact mirrors.current
  origin := mirrors.origin
  root := by
    rw [left.1, right.1]
    exact mirrors.root
  globals := by
    rw [left.1, right.1]
    exact mirrors.globals
  count := by
    rw [left.2, right.2]
    exact mirrors.count
  functions id := by
    rw [Machine.functionAt, Machine.functionAt, left.2, right.2]
    exact mirrors.functions id
  classes := classes
  instances := instances
  depth := depth
  output := output

theorem addInstance (mirrors : m.Mirrors proper p n) (owner : ClassId) :
    (m.addInstance owner).2.Mirrors proper p (n.addInstance owner).2 :=
  mirrors.objects ⟨rfl, rfl⟩ ⟨rfl, rfl⟩ mirrors.classes
    (congrArg (·.push ⟨owner, Table.empty⟩) mirrors.instances) mirrors.depth mirrors.output

theorem addClass (mirrors : m.Mirrors proper p n) (object : ClassObject) :
    (m.addClass object).2.Mirrors proper p (n.addClass object).2 :=
  mirrors.objects ⟨rfl, rfl⟩ ⟨rfl, rfl⟩ (congrArg (·.push object) mirrors.classes) mirrors.instances
    mirrors.depth mirrors.output

theorem setField (mirrors : m.Mirrors proper p n) (id : InstanceId) (name : String) (value : Value) :
    (m.setField id name value).Mirrors proper p (n.setField id name value) :=
  mirrors.objects ⟨rfl, rfl⟩ ⟨rfl, rfl⟩ mirrors.classes
    (congrArg (·.modify id fun object => { object with fields := object.fields.insert name value })
      mirrors.instances) mirrors.depth mirrors.output

theorem accept (mirrors : m.Mirrors proper p n) (output : Sink) :
    Mirrors proper p { m with output := output } { n with output := output } :=
  mirrors.objects ⟨rfl, rfl⟩ ⟨rfl, rfl⟩ mirrors.classes mirrors.instances mirrors.depth rfl

theorem atDepth (mirrors : m.Mirrors proper p n) (depth : Nat) :
    Mirrors proper p { m with depth := depth } { n with depth := depth } :=
  mirrors.objects ⟨rfl, rfl⟩ ⟨rfl, rfl⟩ mirrors.classes mirrors.instances rfl mirrors.output

end Machine.Mirrors
end Lox
