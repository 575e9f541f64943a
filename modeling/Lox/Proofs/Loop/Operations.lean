import Lox.Proofs.Loop.Mirror
import Lox.Proofs.Switch.Agreement

set_option autoImplicit false

/-! The steps of the interpreter on machines that differ in void frames alone. A new frame on both sides
belongs to its like; one that is new on one side only is void, and remains so as long as the code that
runs in it declares nothing there. -/

namespace Lox

variable {proper : ClassDecl → Prop} {p q : Pairing} {m n m' n' : Machine} {α β : Type}
  {good : Couple Pairing Machine Machine → α → Prop}

namespace Machine

theorem restored_of_current {chain : Chain} (same : m.environment.current = chain) :
    m.restored chain = m := by
  subst same
  rfl

end Machine

namespace Machine.Mirrors

variable {w : Couple Pairing Machine Machine}

/-- A step that adds no frame. -/
theorem still (mirrors : m'.Mirrors proper w.ghost n')
    (left : m'.environment.current = w.left.environment.current)
    (right : n'.environment.current = w.right.environment.current) (a : α) :
    Concurs (Machine.mirrors proper) w Bond.any (.ok a m') (.ok a n') :=
  .ok ⟨.refl _, left, right⟩ mirrors trivial

theorem fails (mirrors : m'.Mirrors proper w.ghost n')
    (left : m'.environment.current = w.left.environment.current)
    (right : n'.environment.current = w.right.environment.current) (stop : Stop) :
    Concurs (Machine.mirrors proper) w Bond.any (.error stop m' : EStateM.Result Stop Machine α)
      (.error stop n') :=
  .error ⟨.refl _, left, right⟩ mirrors

theorem bindParams (bindings : Bindings) : ∀ (params : List Param) (arguments : List Value)
    {m n : Machine}, m.Mirrors proper p n →
      p.both m.environment.current.frame n.environment.current.frame →
        Mirrors proper p
          { m with environment := Exec.bindParams bindings m.environment params arguments }
          { n with environment := Exec.bindParams bindings n.environment params arguments }
  | [], _, _, _, mirrors, _ => mirrors
  | _ :: _, [], _, _, mirrors, _ => mirrors
  | param :: params, value :: arguments, m, n, mirrors, opens => by
    unfold Exec.bindParams
    cases bindings.slot? param.id with
    | none => exact bindParams bindings params arguments mirrors opens
    | some slot => exact bindParams bindings params arguments (mirrors.setCell opens slot value) opens

end Machine.Mirrors

namespace Exec

open Machine (mirrors)

theorem current_bindParams (bindings : Bindings) : ∀ (params : List Param) (arguments : List Value)
    (environment : Environment),
      (bindParams bindings environment params arguments).current = environment.current
  | [], _, _ => rfl
  | _ :: _, [], _ => rfl
  | param :: params, value :: arguments, environment => by
    unfold bindParams
    cases bindings.slot? param.id with
    | none => exact current_bindParams bindings params arguments environment
    | some slot => exact current_bindParams bindings params arguments _

variable {w : Couple Pairing Machine Machine}

theorem fail_concurs (agree : (mirrors proper).agree w) (fault : RuntimeFault) (token : Token) :
    Concurs (mirrors proper) w good ((fail fault token : Exec α) w.left) (fail fault token w.right) :=
  Concurs.throw agree _

/-- What is looked at first is the same on both sides. -/
theorem get_bind_concurs {x y : Machine → Exec α}
    (rest : Concurs (mirrors proper) w good (x w.left w.left) (y w.right w.right)) :
    Concurs (mirrors proper) w good ((get >>= x) w.left) ((get >>= y) w.right) :=
  rest

theorem flow_concurs {one two : EStateM.Result Stop Machine Flow}
    (same : Concurs (mirrors proper) w Bond.any one two) :
    Concurs (mirrors proper) w (mirrors proper).hasFlow one two :=
  same.imp fun _ flow _ => by cases flow <;> trivial

/-! ### Frames -/

/-- Where code in new frames has ended, the chains from before are restored. -/
theorem restored_concurs {v : Couple Pairing Machine Machine} (agree : (mirrors proper).agree w)
    (grows : w.ghost.Grows v.ghost) {one two : EStateM.Result Stop Machine α}
    (ran : Concurs (mirrors proper) v Bond.any one two) :
    Concurs (mirrors proper) w Bond.any
      (Outcome.onState (·.restored w.left.environment.current) one)
      (Outcome.onState (·.restored w.right.environment.current) two) := by
  cases ran with
  | ok later last _ =>
    have all := grows.trans later.1
    exact .ok ⟨all, rfl, rfl⟩ (last.restored (agree.current.grow all)) trivial
  | error later last =>
    have all := grows.trans later.1
    exact .error ⟨all, rfl, rfl⟩ (last.restored (agree.current.grow all))

/-- Code in a new frame on both sides. -/
theorem within_concurs (agree : (mirrors proper).agree w) {c d : Chain}
    (aligned : w.ghost.Aligned c.frames d.frames) {x y : Exec α}
    (inner : ∀ v, (mirrors proper).agree v → (mirrors proper).opens v →
      Concurs (mirrors proper) v Bond.any (x v.left) (y v.right)) :
    Concurs (mirrors proper) w Bond.any (within c x w.left) (within d y w.right) := by
  rw [within_apply, within_apply]
  exact restored_concurs agree (w.ghost.grows_addBoth _ _)
    (inner ⟨_, _, _⟩ (agree.graft aligned) (.inr ⟨rfl, rfl⟩))

/-- Code in a new frame on the left side alone, where it leaves the frame void. -/
theorem within_left_concurs (agree : (mirrors proper).agree w) {x y : Exec α}
    (inner : ∀ v, (mirrors proper).agree v → Concurs (mirrors proper) v Bond.any (x v.left) (y v.right)) :
    Concurs (mirrors proper) w Bond.any (within w.left.environment.current x w.left) (y w.right) := by
  have grows := w.ghost.grows_addLeft w.left.environment.frames.size
  have grafted : Machine.Mirrors proper (w.ghost.addLeft w.left.environment.frames.size)
      { w.left with environment := w.left.environment.graft w.left.environment.current } w.right :=
    agree.environments grows (agree.frames.pushLeft.of_frames rfl rfl)
      (.left (.inr rfl) (agree.current.grow grows)) ⟨rfl, rfl⟩ agree.globals
  have ran := inner ⟨_, _, _⟩ grafted
  have stays : Outcome.onState (·.restored w.right.environment.current) (y w.right) = y w.right := by
    generalize x _ = one at ran
    generalize y _ = two at ran
    cases ran with
    | ok later => exact congrArg (EStateM.Result.ok _) (Machine.restored_of_current later.2.2)
    | error later => exact congrArg (EStateM.Result.error _) (Machine.restored_of_current later.2.2)
  rw [within_apply, ← stays]
  exact restored_concurs agree grows ran

/-- Code in a new frame on the right side alone, where it leaves the frame void. -/
theorem within_right_concurs (agree : (mirrors proper).agree w) {x y : Exec α}
    (inner : ∀ v, (mirrors proper).agree v → Concurs (mirrors proper) v Bond.any (x v.left) (y v.right)) :
    Concurs (mirrors proper) w Bond.any (x w.left) (within w.right.environment.current y w.right) := by
  have grows := w.ghost.grows_addRight w.right.environment.frames.size
  have grafted : Machine.Mirrors proper (w.ghost.addRight w.right.environment.frames.size) w.left
      { w.right with environment := w.right.environment.graft w.right.environment.current } :=
    agree.environments grows (agree.frames.pushRight.of_frames rfl rfl)
      (.right (.inr rfl) (agree.current.grow grows)) ⟨rfl, rfl⟩ agree.globals
  have ran := inner ⟨_, _, _⟩ grafted
  have stays : Outcome.onState (·.restored w.left.environment.current) (x w.left) = x w.left := by
    generalize x _ = one at ran
    generalize y _ = two at ran
    cases ran with
    | ok later => exact congrArg (EStateM.Result.ok _) (Machine.restored_of_current later.2.1)
    | error later => exact congrArg (EStateM.Result.error _) (Machine.restored_of_current later.2.1)
  rw [within_apply, ← stays]
  exact restored_concurs agree grows ran

/-- The couple at the depth of the calls that it makes. -/
def below (w : Couple Pairing Machine Machine) : Couple Pairing Machine Machine :=
  ⟨w.ghost, { w.left with depth := w.left.depth + 1 }, { w.right with depth := w.right.depth + 1 }⟩

theorem below_agree (agree : (mirrors proper).agree w) : (mirrors proper).agree (below w) := by
  change Machine.Mirrors proper w.ghost { w.left with depth := w.left.depth + 1 }
    { w.right with depth := w.right.depth + 1 }
  rw [agree.depth]
  exact agree.atDepth _

theorem deeper_concurs {x y : Exec α}
    (inner : Concurs (mirrors proper) (below w) Bond.any (x (below w).left) (y (below w).right)) :
    Concurs (mirrors proper) w Bond.any (deeper x w.left) (deeper y w.right) := by
  have up {ghost : Pairing} {left right : Machine} (last : left.Mirrors proper ghost right) :
      Machine.Mirrors proper ghost { left with depth := left.depth - 1 }
        { right with depth := right.depth - 1 } := by
    rw [last.depth]
    exact last.atDepth _
  unfold deeper
  generalize one : x { w.left with depth := w.left.depth + 1 } = here
  generalize two : y { w.right with depth := w.right.depth + 1 } = there
  have ran : Concurs (mirrors proper) (below w) Bond.any here there := one ▸ two ▸ inner
  cases ran with
  | ok later last _ => exact .ok ⟨later.1, later.2.1, later.2.2⟩ (up last) trivial
  | error later last => exact .error ⟨later.1, later.2.1, later.2.2⟩ (up last)

/-! ### Variables -/

variable {ctx : Context}

theorem lookUp_concurs (agree : (mirrors proper).agree w) (id : NodeId) (name : Token) :
    Concurs (mirrors proper) w Bond.any (lookUp ctx id name w.left) (lookUp ctx id name w.right) := by
  unfold lookUp
  cases ctx.bindings.slot? id with
  | some slot =>
    dsimp only
    unfold Environment.get?
    rw [agree.frames.read? agree.current]
    cases w.left.environment.read? w.left.environment.current slot with
    | some value => exact Concurs.pure agree trivial
    | none => exact fail_concurs agree _ name
  | none =>
    dsimp only
    unfold Environment.getGlobal?
    rw [agree.globals]
    cases w.left.environment.globals.get? name.lexeme with
    | some value => exact Concurs.pure agree trivial
    | none => exact fail_concurs agree _ name

theorem store_concurs (agree : (mirrors proper).agree w) (id : NodeId) (name : Token) (value : Value) :
    Concurs (mirrors proper) w Bond.any (store ctx id name value w.left)
      (store ctx id name value w.right) := by
  unfold store
  cases ctx.bindings.slot? id with
  | some slot =>
    dsimp only
    have found := agree.frames.find? agree.current slot
    generalize w.left.environment.find? w.left.environment.current slot = here at found ⊢
    generalize w.right.environment.find? w.right.environment.current slot = there at found ⊢
    cases found with
    | some pair => exact (agree.setCell pair slot value).still rfl rfl _
    | none => exact fail_concurs agree _ name
  | none =>
    dsimp only
    rw [agree.globals]
    split
    · exact (agree.defineGlobal name.lexeme value).still rfl rfl _
    · exact fail_concurs agree _ name

theorem declare_concurs (agree : (mirrors proper).agree w) (opens : (mirrors proper).opens w) (id : NodeId)
    (name : Token) (value : Value) :
    Concurs (mirrors proper) w Bond.any (declare ctx id name value w.left)
      (declare ctx id name value w.right) := by
  unfold declare Environment.define
  cases ctx.bindings.slot? id with
  | some slot => exact (agree.setCell opens slot value).still rfl rfl _
  | none => exact (agree.defineGlobal name.lexeme value).still rfl rfl _

/-! ### Objects -/

theorem addFunction_concurs (agree : (mirrors proper).agree w) {f g : FunctionObject}
    (own : FunctionObject.Mirrors proper w.ghost f g) :
    Concurs (mirrors proper) w Bond.any
      ((modifyGet (·.addFunction f) : Exec FunctionId) w.left)
      ((modifyGet (·.addFunction g) : Exec FunctionId) w.right) := by
  have same : (w.right.addFunction g).1 = (w.left.addFunction f).1 := agree.count
  change Concurs _ _ _ (.ok (w.left.addFunction f).1 (w.left.addFunction f).2)
    (.ok (w.right.addFunction g).1 (w.right.addFunction g).2)
  rw [same]
  exact (agree.addFunction own).still rfl rfl _

theorem close_concurs (agree : (mirrors proper).agree w) {decl : FunctionDecl}
    (orderly : Orderly.function proper decl) :
    Concurs (mirrors proper) w Bond.any (close decl w.left) (close decl w.right) := by
  have same (m : Machine) : close decl m = (do
      let id ← modifyGet (·.addFunction ⟨decl, m.environment.current, none⟩)
      return .function id : Exec Value) m := rfl
  rw [same, same]
  have own : FunctionObject.Mirrors proper w.ghost ⟨decl, w.left.environment.current, none⟩
      ⟨decl, w.right.environment.current, none⟩ :=
    ⟨rfl, rfl, agree.current, orderly⟩
  refine (addFunction_concurs agree own).bind fun _ _ _ agree _ => ?_
  exact .pure agree trivial

theorem addMethods_concurs {c d : Chain} : ∀ (decls : List FunctionDecl) (members : Table String Value)
    (w : Couple Pairing Machine Machine), (mirrors proper).agree w → w.ghost.Aligned c.frames d.frames →
      Orderly.functions proper decls →
        Concurs (mirrors proper) w Bond.any (addMethods c members decls w.left)
          (addMethods d members decls w.right)
  | [], _, _, agree, _, _ => by
    unfold addMethods
    exact .pure agree trivial
  | method :: rest, members, w, agree, aligned, orderly => by
    have own : FunctionObject.Mirrors proper w.ghost ⟨method, c, none⟩ ⟨method, d, none⟩ :=
      ⟨rfl, rfl, aligned, orderly.1⟩
    unfold addMethods
    cases method.name with
    | none => exact addMethods_concurs rest members w agree aligned orderly.2
    | some name =>
      refine (addFunction_concurs agree own).bind fun after id later agree _ => ?_
      exact addMethods_concurs rest _ after agree (aligned.grow later.1) orderly.2

theorem bindFunction_concurs (agree : (mirrors proper).agree w) (id : FunctionId) (receiver : InstanceId)
    (slot : Slot) :
    Concurs (mirrors proper) w Bond.any
      ((modifyGet (·.bindFunction id receiver slot) : Exec FunctionId) w.left)
      ((modifyGet (·.bindFunction id receiver slot) : Exec FunctionId) w.right) := by
  have same (m : Machine) : (modifyGet (·.bindFunction id receiver slot) : Exec FunctionId) m =
      (modifyGet (·.addFunction { m.functionAt id with
        closure := m.environment.inner (m.functionAt id).closure, receiver := some receiver }) :
          Exec FunctionId)
        { m with environment := m.environment.push (Environment.cell slot (.instance receiver)) } := rfl
  have own := agree.functions id
  let pushed : Couple Pairing Machine Machine :=
    ⟨w.ghost.addBoth w.left.environment.frames.size w.right.environment.frames.size,
      { w.left with environment := w.left.environment.push (Environment.cell slot (.instance receiver)) },
      { w.right with environment := w.right.environment.push (Environment.cell slot (.instance receiver)) }⟩
  have there : (mirrors proper).agree pushed := agree.push (Environment.cell slot (.instance receiver))
  have bound : FunctionObject.Mirrors proper pushed.ghost
      { w.left.functionAt id with
        closure := w.left.environment.inner (w.left.functionAt id).closure, receiver := some receiver }
      { w.right.functionAt id with
        closure := w.right.environment.inner (w.right.functionAt id).closure, receiver := some receiver } :=
    ⟨own.decl, rfl, Machine.Mirrors.aligned_inner own.closure, own.orderly⟩
  rw [same, same]
  have later : (mirrors proper).later w pushed := ⟨w.ghost.grows_addBoth _ _, rfl, rfl⟩
  exact (addFunction_concurs there bound).since later

theorem getProperty_concurs (agree : (mirrors proper).agree w) (object : Value) (name : Token) :
    Concurs (mirrors proper) w Bond.any (getProperty object name w.left)
      (getProperty object name w.right) := by
  cases object with
  | «instance» id =>
    rw [getProperty_instance]
    refine get_bind_concurs ?_
    simp only [agree.instanceAt, agree.classAt]
    cases (w.left.instanceAt id).fields.get? name.lexeme with
    | some value => exact .pure agree trivial
    | none =>
      cases (w.left.classAt (w.left.instanceAt id).owner).members.get? name.lexeme with
      | none => exact fail_concurs agree _ name
      | some value =>
        cases (w.left.classAt (w.left.instanceAt id).owner).thisSlot with
        | none => cases value <;> exact .pure agree trivial
        | some slot =>
          cases value with
          | function f => exact (bindFunction_concurs agree f id slot).map _
          | _ => exact .pure agree trivial
  | _ => exact fail_concurs agree .propertyOfOther name

theorem setField_concurs (agree : (mirrors proper).agree w) (id : InstanceId) (name : String)
    (value : Value) :
    Concurs (mirrors proper) w Bond.any ((modify (·.setField id name value) : Exec Unit) w.left)
      ((modify (·.setField id name value) : Exec Unit) w.right) :=
  (agree.setField id name value).still rfl rfl _

theorem addInstance_concurs (agree : (mirrors proper).agree w) (owner : ClassId) :
    Concurs (mirrors proper) w Bond.any ((modifyGet (·.addInstance owner) : Exec InstanceId) w.left)
      ((modifyGet (·.addInstance owner) : Exec InstanceId) w.right) := by
  have same : (w.right.addInstance owner).1 = (w.left.addInstance owner).1 :=
    congrArg Array.size agree.instances
  change Concurs _ _ _ (.ok (w.left.addInstance owner).1 (w.left.addInstance owner).2)
    (.ok (w.right.addInstance owner).1 (w.right.addInstance owner).2)
  rw [same]
  exact (agree.addInstance owner).still rfl rfl _

theorem addClass_concurs (agree : (mirrors proper).agree w) (object : ClassObject) :
    Concurs (mirrors proper) w Bond.any ((modifyGet (·.addClass object) : Exec ClassId) w.left)
      ((modifyGet (·.addClass object) : Exec ClassId) w.right) := by
  have same : (w.right.addClass object).1 = (w.left.addClass object).1 :=
    congrArg Array.size agree.classes
  change Concurs _ _ _ (.ok (w.left.addClass object).1 (w.left.addClass object).2)
    (.ok (w.right.addClass object).1 (w.right.addClass object).2)
  rw [same]
  exact (agree.addClass object).still rfl rfl _

theorem print_concurs (agree : (mirrors proper).agree w) (value : Value) :
    Concurs (mirrors proper) w Bond.any (print value w.left) (print value w.right) := by
  have wrote (text : String) :
      Concurs (mirrors proper) w Bond.any (write text w.left) (write text w.right) := by
    unfold write
    rw [agree.output]
    cases w.left.output.failure? text with
    | none => exact (agree.accept (w.left.output.accept text)).still rfl rfl ()
    | some failure => exact (agree.accept (w.left.output.accept text)).fails rfl rfl _
  refine get_bind_concurs ?_
  rw [agree.text]
  exact wrote _

/-! ### Calls -/

theorem checkArity_concurs (agree : (mirrors proper).agree w) (expected found : Nat) (paren : Token) :
    Concurs (mirrors proper) w Bond.any (checkArity expected found paren w.left)
      (checkArity expected found paren w.right) := by
  unfold checkArity
  split
  · exact Concurs.pure agree trivial
  · exact fail_concurs agree _ paren

section

variable (calls : ∀ id arguments w, (mirrors proper).agree w →
  Concurs (mirrors proper) w Bond.any (ctx.call id arguments w.left) (ctx.call id arguments w.right))
include calls

theorem callFunction_concurs (agree : (mirrors proper).agree w) (id : FunctionId) (arguments : List Value)
    (paren : Token) :
    Concurs (mirrors proper) w Bond.any (callFunction ctx id arguments paren w.left)
      (callFunction ctx id arguments paren w.right) := by
  refine get_bind_concurs ?_
  rw [agree.depth]
  split
  · exact fail_concurs agree .tooDeep paren
  · exact calls id arguments w agree

theorem construct_concurs (agree : (mirrors proper).agree w) (id : ClassId) (arguments : List Value)
    (paren : Token) :
    Concurs (mirrors proper) w Bond.any (construct ctx id arguments paren w.left)
      (construct ctx id arguments paren w.right) := by
  unfold construct
  refine get_bind_concurs (get_bind_concurs (get_bind_concurs ?_))
  rw [agree.classAt, agree.initializer?, agree.arityOfClass]
  refine (checkArity_concurs agree _ _ paren).bind fun _ _ _ agree _ => ?_
  refine (addInstance_concurs agree id).bind fun _ fresh _ agree _ => ?_
  cases w.left.initializer? (w.left.classAt id) with
  | none => exact .pure agree trivial
  | some f =>
    cases (w.left.classAt id).thisSlot with
    | none => exact .pure agree trivial
    | some slot =>
      refine (bindFunction_concurs agree f fresh slot).bind fun _ bound _ agree _ => ?_
      refine (callFunction_concurs calls agree bound arguments paren).bind fun _ _ _ agree _ => ?_
      exact .pure agree trivial

theorem invoke_concurs (agree : (mirrors proper).agree w) (callee : Value) (arguments : List Value)
    (paren : Token) :
    Concurs (mirrors proper) w Bond.any (invoke ctx callee arguments paren w.left)
      (invoke ctx callee arguments paren w.right) := by
  cases callee with
  | function id =>
    refine get_bind_concurs ?_
    rw [agree.arity]
    exact (checkArity_concurs agree _ _ paren).bind fun _ _ _ agree _ =>
      callFunction_concurs calls agree id arguments paren
  | «class» id => exact construct_concurs calls agree id arguments paren
  | _ => exact fail_concurs agree .notCallable paren

/-- Whatever code runs on machines that differ in void frames alone, they still do afterwards. -/
theorem steps_tandem : Tandem proper (mirrors proper) (steps ctx) (steps ctx) where
  rounds := rfl
  lookUp id name agree := lookUp_concurs agree id name
  store id name agree _ := store_concurs agree id name _
  declare id name agree opens _ := declare_concurs agree opens id name _
  close agree orderly := close_concurs agree orderly
  getProperty name agree _ := getProperty_concurs agree _ name
  setProperty name agree _ _ := setField_concurs agree _ name.lexeme _
  print agree _ := print_concurs agree _
  invoke paren agree _ _ := invoke_concurs calls agree _ _ paren
  scope agree inner := flow_concurs
    (within_concurs agree agree.current fun v agree opens => (inner v agree opens).imp fun _ _ _ => trivial)
  makeClass := by
    intro w decl agree opens _ orderly values
    refine (declare_concurs agree opens decl.id decl.name .nil).bind fun after _ _ agree _ => ?_
    refine (values after agree).bind fun after members _ agree _ => ?_
    refine (addMethods_concurs decl.methods members after agree agree.current orderly).bind
      fun after members _ agree _ => ?_
    refine (addClass_concurs agree _).bind fun _ made _ agree _ => ?_
    exact store_concurs agree decl.id decl.name (.class made)

theorem body_concurs (agree : (mirrors proper).agree w) {f g : FunctionObject}
    (own : FunctionObject.Mirrors proper w.ghost f g) (arguments : List Value) :
    Concurs (mirrors proper) w Bond.any (body ctx f arguments w.left) (body ctx g arguments w.right) := by
  have kinds : g.isInitializer = f.isInitializer := by
    unfold FunctionObject.isInitializer
    rw [own.decl]
  have code : Orderly.stmts proper f.decl.body := by
    have orderly := own.orderly
    cases decl : f.decl with
    | mk name kind params statements =>
      rw [decl] at orderly
      exact orderly
  unfold body
  rw [kinds, own.receiver, own.decl]
  have ran : Concurs (mirrors proper) w Bond.any
      (deeper (within f.closure do
        modify fun m => { m with
          environment := bindParams ctx.bindings m.environment f.decl.params arguments }
        stmts ctx f.decl.body) w.left)
      (deeper (within g.closure do
        modify fun m => { m with
          environment := bindParams ctx.bindings m.environment f.decl.params arguments }
        stmts ctx f.decl.body) w.right) := by
    refine deeper_concurs (within_concurs (below_agree agree) own.closure fun v agree opens => ?_)
    have bound : Concurs (mirrors proper) v Bond.any
        ((modify fun m => { m with
          environment := bindParams ctx.bindings m.environment f.decl.params arguments } : Exec Unit) v.left)
        ((modify fun m => { m with
          environment := bindParams ctx.bindings m.environment f.decl.params arguments } : Exec Unit) v.right) :=
      (Machine.Mirrors.bindParams ctx.bindings f.decl.params arguments agree opens).still
        (current_bindParams _ _ _ _) (current_bindParams _ _ _ _) ()
    refine bound.bind fun after _ later agree _ => ?_
    have ran := (steps_tandem calls).stmts f.decl.body code after agree
      ((mirrors proper).stays later opens)
    rw [stmts_steps] at ran
    exact ran.imp fun _ _ _ => trivial
  refine ran.bind fun _ flow _ agree _ => ?_
  cases f.isInitializer <;> cases f.receiver <;> cases flow <;> exact .pure agree trivial

end

theorem call_concurs (bindings : Bindings) (maxDepth bound : Nat) : ∀ id arguments w,
    (mirrors proper).agree w → Concurs (mirrors proper) w Bond.any
      (call bindings maxDepth bound id arguments w.left)
      (call bindings maxDepth bound id arguments w.right) := by
  induction bound with
  | zero => exact fun _ _ _ agree => Concurs.throw agree _
  | succ bound ih =>
    intro id arguments w agree
    exact get_bind_concurs (body_concurs ih agree (agree.functions id) arguments)

theorem context_concurs (bindings : Bindings) (maxDepth bound : Nat) : ∀ id arguments w,
    (mirrors proper).agree w → Concurs (mirrors proper) w Bond.any
      ((context bindings maxDepth bound).call id arguments w.left)
      ((context bindings maxDepth bound).call id arguments w.right) :=
  call_concurs bindings maxDepth bound

end Exec
end Lox
