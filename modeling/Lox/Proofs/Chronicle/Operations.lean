import Lox.Proofs.Chronicle.Methods
import Lox.Proofs.Trace.Balance

set_option autoImplicit false

/-! The interpreter that keeps a chronicle, beside the one that does not. They go through programs in the same
way and come to the same machines, and the chronicle agrees with its machine after every step. -/

namespace Lox

namespace Chronicle

variable {known : Site → Prop}

/-- A chronicle that agrees with its machine, now and at the reads and calls that it tells of. -/
structure Tells (known : Site → Prop) (c : Chronicle) : Prop where
  book : Book known c.machine c.deeds
  truthful : Truthful known c.deeds

/-- More has happened, and all objects have been kept. -/
structure Continues (c after : Chronicle) : Prop where
  deeds : ∃ new, after.deeds = new ++ c.deeds
  machine : c.machine.Extends after.machine

theorem Continues.refl (c : Chronicle) : c.Continues c :=
  ⟨⟨[], rfl⟩, .refl _⟩

theorem Continues.trans {first second third : Chronicle} (one : first.Continues second)
    (two : second.Continues third) : first.Continues third := by
  obtain ⟨⟨early, before⟩, further⟩ := one
  obtain ⟨⟨late, after⟩, more⟩ := two
  refine ⟨⟨late ++ early, ?_⟩, further.trans more⟩
  rw [after, before, List.append_assoc]

/-- The two interpreters on one machine. -/
def bond (known : Site → Prop) : Bond Unit Chronicle Machine where
  agree w := w.right = w.left.machine ∧ w.left.Tells known
  later w after := w.left.Continues after.left
  has w value := w.left.machine.Knows value
  opens _ := True
  refl w := .refl w.left
  trans one two := one.trans two
  keeps later knows := knows.later later.machine
  stays _ _ := trivial
  data _ _ data := Machine.knows_data data

end Chronicle

namespace Noting

open Chronicle

variable {known : Site → Prop} {w : Couple Unit Chronicle Machine} {α β : Type} {ctx : Context}

/-- What a step of the interpreter leaves, if it succeeds and something is noted, and if it fails. -/
def Leaves (known : Site → Prop) (c : Chronicle) (deeds : α → List Deed) (good : Machine → α → Prop) :
    EStateM.Result Stop Machine α → Prop
  | .ok a m => Tells known ⟨m, deeds a ++ c.deeds⟩ ∧ c.machine.Extends m ∧ good m a
  | .error _ m => Tells known ⟨m, c.deeds⟩ ∧ c.machine.Extends m

theorem step_concurs (good : Machine → α → Prop) (agree : (bond known).agree w) {plain : Exec α}
    {deeds : α → List Deed} (leaves : Leaves known w.left deeds good (plain w.left.machine)) :
    Concurs (bond known) w (fun after a => good after.left.machine a) (step plain deeds w.left)
      (plain w.right) := by
  obtain ⟨same, -⟩ := agree
  unfold step
  rw [same]
  cases result : plain w.left.machine with
  | ok a m =>
    rw [result] at leaves
    obtain ⟨tells, further, isGood⟩ := leaves
    have later : (bond known).later w ⟨(), ⟨m, deeds a ++ w.left.deeds⟩, m⟩ := ⟨⟨deeds a, rfl⟩, further⟩
    exact .ok later ⟨rfl, tells⟩ isGood
  | error stop m =>
    rw [result] at leaves
    obtain ⟨tells, further⟩ := leaves
    have later : (bond known).later w ⟨(), ⟨m, w.left.deeds⟩, m⟩ := ⟨⟨[], rfl⟩, further⟩
    exact .error later ⟨rfl, tells⟩

section

variable {c : Chronicle} {deeds : α → List Deed} {good : Machine → α → Prop}

/-- A step that changes nothing. -/
theorem leaves_pure (tells : c.Tells known) {a : α} (isGood : good c.machine a) :
    Leaves known c (fun _ => []) good ((return a : Exec α) c.machine) :=
  ⟨tells, .refl _, isGood⟩

theorem leaves_fail (tells : c.Tells known) (fault : RuntimeFault) (token : Token) :
    Leaves known c deeds good (Exec.fail fault token c.machine) :=
  ⟨tells, .refl _⟩

theorem leaves_lookUp (tells : c.Tells known) (id : NodeId) (name : Token) :
    Leaves known c (fun _ => []) Machine.Knows (Exec.lookUp ctx id name c.machine) := by
  have closed := tells.book.closed
  unfold Exec.lookUp
  cases ctx.bindings.slot? id with
  | some slot =>
    dsimp only
    cases found : c.machine.environment.get? slot with
    | none => exact leaves_fail tells _ name
    | some value =>
      obtain ⟨frame, -, held⟩ := List.exists_of_findSome?_eq_some found
      exact ⟨tells, .refl _, closed.cells frame slot value held⟩
  | none =>
    dsimp only
    cases found : c.machine.environment.getGlobal? name.lexeme with
    | none => exact leaves_fail tells _ name
    | some value => exact ⟨tells, .refl _, closed.globals name.lexeme value found⟩

theorem leaves_setCell (tells : c.Tells known) {value : Value} (knows : c.machine.Knows value)
    (frame : FrameId) (slot : Slot) {a : α} (isGood : ∀ m, good m a) :
    Leaves known c (fun _ => []) good
      (.ok a { c.machine with environment := c.machine.environment.setCell frame slot value }) :=
  ⟨⟨tells.book.setCell knows frame slot, tells.truthful⟩, c.machine.extends_other _ _ _, isGood _⟩

theorem leaves_defineGlobal (tells : c.Tells known) {value : Value} (knows : c.machine.Knows value)
    (name : String) {a : α} (isGood : ∀ m, good m a) :
    Leaves known c (fun _ => [.wrote name value]) good
      (.ok a { c.machine with environment := c.machine.environment.defineGlobal name value }) :=
  ⟨⟨tells.book.defineGlobal name knows, tells.truthful⟩, c.machine.extends_other _ _ _, isGood _⟩

end

theorem lookUp_concurs (agree : (bond known).agree w) (id : NodeId) (name : Token) :
    Concurs (bond known) w (bond known).has (quietly (Exec.lookUp ctx id name) w.left)
      (Exec.lookUp ctx id name w.right) :=
  step_concurs Machine.Knows agree (leaves_lookUp agree.2 id name)

theorem declare_concurs (agree : (bond known).agree w) (id : NodeId) (name : Token) {value : Value}
    (knows : w.left.machine.Knows value) :
    Concurs (bond known) w Bond.any (declare ctx id name value w.left)
      (Exec.declare ctx id name value w.right) := by
  refine step_concurs (fun _ _ => True) agree ?_
  unfold written Exec.declare
  cases ctx.bindings.slot? id with
  | some slot => exact leaves_setCell agree.2 knows _ slot fun _ => trivial
  | none => exact leaves_defineGlobal agree.2 knows name.lexeme fun _ => trivial

theorem store_concurs (agree : (bond known).agree w) (id : NodeId) (name : Token) {value : Value}
    (knows : w.left.machine.Knows value) :
    Concurs (bond known) w Bond.any (store ctx id name value w.left)
      (Exec.store ctx id name value w.right) := by
  refine step_concurs (fun _ _ => True) agree ?_
  unfold written Exec.store
  cases ctx.bindings.slot? id with
  | some slot =>
    dsimp only
    cases w.left.machine.environment.find? w.left.machine.environment.current slot with
    | some frame => exact leaves_setCell agree.2 knows frame slot fun _ => trivial
    | none => exact leaves_fail agree.2 _ name
  | none =>
    dsimp only
    split
    · exact leaves_defineGlobal agree.2 knows name.lexeme fun _ => trivial
    · exact leaves_fail agree.2 _ name

/-! ### Objects -/

theorem leaves_addFunction {c : Chronicle} (tells : c.Tells known) {f : FunctionObject}
    (orderly : Orderly.function (ClassDecl.Accepted known) f.decl)
    (bound : ∀ receiver, f.receiver = some receiver → c.machine.Knows (.instance receiver)) :
    Leaves known c (fun _ => []) (fun m id => m.Knows (.function id))
      ((modifyGet (·.addFunction f) : Exec FunctionId) c.machine) :=
  ⟨⟨tells.book.addFunction orderly bound, tells.truthful⟩, c.machine.extends_addFunction f,
    c.machine.knows_addFunction f⟩

theorem close_concurs (agree : (bond known).agree w) {decl : FunctionDecl}
    (orderly : Orderly.function (ClassDecl.Accepted known) decl) :
    Concurs (bond known) w (bond known).has (quietly (Exec.close decl) w.left) (Exec.close decl w.right) := by
  refine step_concurs Machine.Knows agree ?_
  exact leaves_addFunction agree.2 (f := ⟨decl, w.left.machine.environment.current, none⟩) orderly nofun

theorem bindFunction_concurs (agree : (bond known).agree w) (id : FunctionId) {receiver : InstanceId}
    (knows : w.left.machine.Knows (.instance receiver)) (slot : Slot) :
    Concurs (bond known) w (fun after bound => after.left.machine.Knows (.function bound))
      (quietly (modifyGet (·.bindFunction id receiver slot)) w.left)
      ((modifyGet (·.bindFunction id receiver slot) : Exec FunctionId) w.right) := by
  refine step_concurs (fun m id => m.Knows (.function id)) agree ?_
  exact ⟨⟨agree.2.book.bindFunction id knows slot, agree.2.truthful⟩,
    w.left.machine.extends_bindFunction id receiver slot, Machine.knows_addFunction _⟩

theorem note_concurs (deed : Machine → Deed) {x : Noting α} {y : Exec α}
    {good : Couple Unit Chronicle Machine → α → Prop} (agree : (bond known).agree w)
    (tells : Tells known { w.left with deeds := deed w.left.machine :: w.left.deeds })
    (rest : ∀ v, (bond known).agree v → v.left.machine = w.left.machine → v.right = w.right →
      Concurs (bond known) v good (x v.left) (y v.right)) :
    Concurs (bond known) w good ((do note deed; x) w.left) (y w.right) := by
  let noted : Couple Unit Chronicle Machine :=
    ⟨(), { w.left with deeds := deed w.left.machine :: w.left.deeds }, w.right⟩
  have later : (bond known).later w noted := ⟨⟨[_], rfl⟩, .refl _⟩
  exact (rest noted ⟨agree.1, tells⟩ rfl rfl).since later

theorem leaves_getProperty {c : Chronicle} (tells : c.Tells known) {object : Value}
    (knows : c.machine.Knows object) (name : Token) :
    Leaves known c (fun _ => []) Machine.Knows (Exec.getProperty object name c.machine) := by
  cases object with
  | «instance» id =>
    have closed := tells.book.closed
    unfold Exec.getProperty Machine.getProperty
    dsimp only
    cases own : (c.machine.instanceAt id).fields.get? name.lexeme with
    | some value => exact ⟨tells, .refl _, closed.properties _ _ _ own⟩
    | none =>
      dsimp only
      cases shared : (c.machine.classAt (c.machine.instanceAt id).owner).members.get? name.lexeme with
      | none => exact leaves_fail tells _ name
      | some value =>
        have kept : Leaves known c (fun _ => []) Machine.Knows (.ok value c.machine) :=
          ⟨tells, .refl _, closed.members _ _ _ shared⟩
        cases (c.machine.classAt (c.machine.instanceAt id).owner).thisSlot with
        | none => cases value <;> exact kept
        | some slot =>
          cases value with
          | function f =>
            exact ⟨⟨tells.book.bindFunction f knows slot, tells.truthful⟩,
              c.machine.extends_bindFunction f id slot, Machine.knows_addFunction _⟩
          | _ => exact kept
  | _ => exact leaves_fail tells .propertyOfOther name

theorem getProperty_concurs (agree : (bond known).agree w) {object : Value}
    (knows : w.left.machine.Knows object) (name : Token) :
    Concurs (bond known) w (bond known).has (getProperty object name w.left)
      (Exec.getProperty object name w.right) := by
  cases object with
  | «instance» id =>
    have noted : Tells known
        { w.left with deeds := .read w.left.machine id name.lexeme :: w.left.deeds } :=
      ⟨agree.2.book.note nofun nofun (fun _ _ => rfl) fun _ => rfl, ⟨agree.2.book, knows⟩, agree.2.truthful⟩
    refine note_concurs (.read · id name.lexeme) agree noted fun v agree same _ => ?_
    exact step_concurs Machine.Knows agree (leaves_getProperty agree.2 (same ▸ knows) name)
  | _ => exact step_concurs Machine.Knows agree (leaves_getProperty agree.2 knows name)

theorem setProperty_concurs (agree : (bond known).agree w) {id : InstanceId} (name : Token) {value : Value}
    (room : w.left.machine.Knows (.instance id)) (knows : w.left.machine.Knows value) :
    Concurs (bond known) w Bond.any (setProperty id name value w.left)
      ((modify (·.setField id name.lexeme value) : Exec Unit) w.right) := by
  refine step_concurs (fun _ _ => True) agree ?_
  exact ⟨⟨agree.2.book.setField name.lexeme room knows, agree.2.truthful⟩,
    w.left.machine.extends_setField id name.lexeme value, trivial⟩

theorem print_concurs (agree : (bond known).agree w) (value : Value) :
    Concurs (bond known) w Bond.any (quietly (Exec.print value) w.left) (Exec.print value w.right) := by
  refine step_concurs (fun _ _ => True) agree ?_
  have wrote (text : String) : Leaves known w.left (fun _ => []) (fun _ _ => True)
      (Exec.write text w.left.machine) := by
    have tells : Tells known { w.left with
        machine := { w.left.machine with output := w.left.machine.output.accept text } } :=
      ⟨agree.2.book.accept _ w.left.machine.depth, agree.2.truthful⟩
    have further := w.left.machine.extends_other w.left.machine.environment
      (w.left.machine.output.accept text) w.left.machine.depth
    unfold Exec.write
    cases w.left.machine.output.failure? text with
    | none => exact ⟨tells, further, trivial⟩
    | some failure => exact ⟨tells, further⟩
  exact wrote _

/-! ### Classes -/

/-- Only the interpreter that keeps a chronicle asks what the present machine is. -/
theorem look_concurs {x : Machine → Noting α} {other : EStateM.Result Stop Machine α}
    {good : Couple Unit Chronicle Machine → α → Prop}
    (rest : Concurs (bond known) w good (x w.left.machine w.left) other) :
    Concurs (bond known) w good ((machine >>= x) w.left) other :=
  rest

/-- What the present machine is, is the same for both. -/
theorem machine_concurs (agree : (bond known).agree w) {x : Machine → Noting α} {y : Machine → Exec α}
    {good : Couple Unit Chronicle Machine → α → Prop}
    (rest : Concurs (bond known) w good (x w.left.machine w.left) (y w.left.machine w.right)) :
    Concurs (bond known) w good ((machine >>= x) w.left) ((get >>= y) w.right) := by
  have same : (get >>= y) w.right = y w.right w.right := rfl
  rw [same, agree.1]
  rw [agree.1] at rest
  exact rest

theorem addMethods_concurs (agree : (bond known).agree w) {decls : List FunctionDecl}
    (orderly : Orderly.functions (ClassDecl.Accepted known) decls) (values : Table String Value) :
    Concurs (bond known) w
      (fun after all => Exec.AddsMethods known decls w.left.machine after.left.machine values all)
      (quietly (do Exec.addMethods (← Exec.capture) values decls) w.left)
      ((do Exec.addMethods (← Exec.capture) values decls : Exec (Table String Value)) w.right) := by
  refine step_concurs (Exec.AddsMethods known decls w.left.machine · values ·) agree ?_
  obtain ⟨all, after, same, adds⟩ :=
    Exec.addMethods_ends known w.left.machine.environment.current decls values w.left.machine
  change Leaves known w.left _ _ (Exec.addMethods _ values decls w.left.machine)
  rw [same]
  exact ⟨⟨adds.book _ agree.2.book orderly, agree.2.truthful⟩, adds.further, adds⟩

theorem makeClass_concurs (vouched : Vouched known ctx.bindings) (genuine : ctx.Genuine) {decl : ClassDecl}
    {evaluate : Noting (Table String Value)} (agree : (bond known).agree w)
    (accepted : decl.Accepted known) (orderly : Orderly.functions (ClassDecl.Accepted known) decl.methods)
    (values : ∀ v, (bond known).agree v → Concurs (bond known) v ((bond known).Fills decl.fields)
      (evaluate v.left) (Exec.fields ctx Table.empty decl.fields v.right)) :
    Concurs (bond known) w Bond.any (makeClass ctx decl evaluate w.left)
      (Exec.makeClass ctx decl (Exec.fields ctx Table.empty decl.fields) w.right) := by
  have nil : w.left.machine.Knows .nil := trivial
  have distinct := accepted.distinct vouched
  obtain ⟨slot, bound⟩ := accepted.slot vouched
  have makes : Exec.makeClass ctx decl (Exec.fields ctx Table.empty decl.fields) = (do
      Exec.declare ctx decl.id decl.name .nil
      let values ← Exec.fields ctx Table.empty decl.fields
      let members ← (do Exec.addMethods (← Exec.capture) values decl.methods)
      let made ← modifyGet (·.addClass ⟨decl.name.lexeme, members, ctx.bindings.slot? decl.thisId⟩)
      Exec.store ctx decl.id decl.name (.class made)) := by
    unfold Exec.makeClass
    simp only [bind_assoc]
  rw [makes]
  unfold makeClass
  refine (declare_concurs agree decl.id decl.name nil).bind fun after _ _ agree _ => ?_
  have same : after.right = after.left.machine := agree.1
  refine look_concurs ?_
  refine (values after agree).bind_of fun done values _ agree fills evaluated => ?_
  rw [same] at evaluated
  unfold finishClass
  refine (addMethods_concurs agree orderly values).bind fun last all _ agree adds => ?_
  -- The names of the members are distinct, so no method takes the place of a field or of another method.
  have bears := Machine.bears_addClass adds fills.keys distinct (some slot)
  rw [bound]
  have made : Concurs (bond known) last (fun after id => after.left.machine.Knows (.class id))
      (step (modifyGet (·.addClass ⟨decl.name.lexeme, all, some slot⟩))
        (fun made => [.made after.left.machine made decl values (some slot)]) last.left)
      ((modifyGet (·.addClass ⟨decl.name.lexeme, all, some slot⟩) : Exec ClassId) last.right) := by
    refine step_concurs (fun m id => m.Knows (.class id)) agree ?_
    have evaluates : Evaluates after.left.machine decl values (some slot) :=
      ⟨ctx, done.right, genuine, bound, evaluated⟩
    refine ⟨⟨?_, evaluates, agree.2.truthful⟩, last.left.machine.extends_addClass _,
      last.left.machine.knows_addClass _⟩
    have members := adds.knows fun name value found => fills.has name value found
    exact agree.2.book.addClass after.left.machine members accepted distinct rfl bears
  exact made.bind fun _ _ _ agree knows => store_concurs agree decl.id decl.name knows

/-! ### Calls -/

/-- A call that both interpreters make. -/
def CallsAlike (known : Site → Prop) (ctx : Context) (call : Calls) : Prop :=
  ∀ id arguments w, (bond known).agree w → (∀ value ∈ arguments, w.left.machine.Knows value) →
    Concurs (bond known) w (bond known).has (call id arguments w.left) (ctx.call id arguments w.right)

theorem checkArity_concurs (agree : (bond known).agree w) (expected found : Nat) (paren : Token) :
    Concurs (bond known) w Bond.any (quietly (Exec.checkArity expected found paren) w.left)
      (Exec.checkArity expected found paren w.right) := by
  refine step_concurs (fun _ _ => True) agree ?_
  unfold Exec.checkArity
  split
  · exact leaves_pure agree.2 trivial
  · exact leaves_fail agree.2 _ paren

section

variable {call : Calls} (calls : CallsAlike known ctx call)
include calls

theorem callFunction_concurs (agree : (bond known).agree w) (id : FunctionId) {arguments : List Value}
    (knows : ∀ value ∈ arguments, w.left.machine.Knows value) (paren : Token) :
    Concurs (bond known) w (bond known).has (callFunction ctx call id arguments paren w.left)
      (Exec.callFunction ctx id arguments paren w.right) := by
  unfold callFunction Exec.callFunction
  refine machine_concurs agree ?_
  split
  · exact step_concurs Machine.Knows agree (leaves_fail agree.2 .tooDeep paren)
  · exact calls id arguments w agree knows

theorem construct_concurs (agree : (bond known).agree w) {id : ClassId} {arguments : List Value}
    (room : w.left.machine.Knows (.class id)) (knows : ∀ value ∈ arguments, w.left.machine.Knows value)
    (paren : Token) :
    Concurs (bond known) w (bond known).has (construct ctx call id arguments paren w.left)
      (Exec.construct ctx id arguments paren w.right) := by
  have noted : Tells known
      { w.left with deeds := .called w.left.machine id arguments paren :: w.left.deeds } :=
    ⟨agree.2.book.note nofun nofun (fun _ _ => rfl) fun _ => rfl, ⟨agree.2.book, room, knows⟩,
      agree.2.truthful⟩
  unfold construct Exec.construct
  refine note_concurs (.called · id arguments paren) agree noted fun v agree same _ => ?_
  rw [← same] at room knows
  refine machine_concurs agree (machine_concurs agree (machine_concurs agree ?_))
  refine (checkArity_concurs agree _ _ paren).bind fun after _ later agree _ => ?_
  have roomAfter : after.left.machine.Knows (.class id) := room.later later.machine
  have makes : Concurs (bond known) after (fun last fresh => last.left.machine.Knows (.instance fresh))
      (step (modifyGet (·.addInstance id)) (fun fresh => [.born fresh id]) after.left)
      ((modifyGet (·.addInstance id) : Exec InstanceId) after.right) := by
    refine step_concurs (fun m fresh => m.Knows (.instance fresh)) agree ?_
    exact ⟨⟨agree.2.book.addInstance roomAfter, agree.2.truthful⟩, after.left.machine.extends_addInstance id,
      after.left.machine.knows_addInstance id⟩
  refine makes.bind fun last fresh more agree isFresh => ?_
  have knowsLast : ∀ value ∈ arguments, last.left.machine.Knows value :=
    (bond known).hasAll_later (later.trans more) knows
  cases v.left.machine.initializer? (v.left.machine.classAt id) with
  | none => exact .pure agree isFresh
  | some f =>
    cases (v.left.machine.classAt id).thisSlot with
    | none => exact .pure agree isFresh
    | some slot =>
      refine (bindFunction_concurs agree f isFresh slot).bind fun ready bound further agree _ => ?_
      have knowsReady : ∀ value ∈ arguments, ready.left.machine.Knows value :=
        (bond known).hasAll_later further knowsLast
      refine (callFunction_concurs calls agree bound knowsReady paren).bind fun _ _ called agree _ => ?_
      exact .pure agree ((bond known).keeps (further.trans called) isFresh)

theorem invoke_concurs (agree : (bond known).agree w) {callee : Value} {arguments : List Value}
    (knowsCallee : w.left.machine.Knows callee) (knows : ∀ value ∈ arguments, w.left.machine.Knows value)
    (paren : Token) :
    Concurs (bond known) w (bond known).has (invoke ctx call callee arguments paren w.left)
      (Exec.invoke ctx callee arguments paren w.right) := by
  cases callee with
  | function id =>
    unfold invoke Exec.invoke
    refine machine_concurs agree ?_
    refine (checkArity_concurs agree _ _ paren).bind fun after _ later agree _ => ?_
    exact callFunction_concurs calls agree id ((bond known).hasAll_later later knows) paren
  | «class» id => exact construct_concurs calls agree knowsCallee knows paren
  | _ =>
    have fails : Leaves known w.left (fun _ => []) Machine.Knows
        ((Exec.fail .notCallable paren : Exec Value) w.left.machine) := leaves_fail agree.2 _ paren
    exact step_concurs Machine.Knows agree fails

end

/-! ### Scopes -/

section

variable {x : Noting Flow} {y : Exec Flow}

/-- A change of variables or of the depth of calls. -/
def Eases (known : Site → Prop) (change : Machine → Machine) : Prop :=
  ∀ c : Chronicle, c.Tells known → Tells known { c with machine := change c.machine } ∧
    c.machine.Extends (change c.machine)

theorem Eases.later {change : Machine → Machine} (eases : Eases known change) {c : Chronicle}
    (tells : c.Tells known) : c.Continues { c with machine := change c.machine } :=
  ⟨⟨[], rfl⟩, (eases c tells).2⟩

/-- A body between two such changes. -/
theorem around_concurs {before after : Machine → Machine} (enters : Eases known before)
    (leaves : Eases known after) (agree : (bond known).agree w)
    (inner : ∀ v, (bond known).agree v → (bond known).later w v →
      Concurs (bond known) v (bond known).hasFlow (x v.left) (y v.right)) :
    Concurs (bond known) w (bond known).hasFlow (around before after x w.left)
      (Exec.around before after y w.right) := by
  obtain ⟨same, tells⟩ := agree
  have ran := inner ⟨(), { w.left with machine := before w.left.machine }, before w.left.machine⟩
    ⟨rfl, (enters w.left tells).1⟩ (enters.later tells)
  unfold around Exec.around
  rw [same]
  generalize x _ = one at ran ⊢
  generalize y _ = two at ran ⊢
  have back {left : Chronicle} {right : Machine} (more : Continues _ left) (tells : left.Tells known) :
      (bond known).later w ⟨(), { left with machine := after left.machine }, after right⟩ :=
    ((enters.later ‹_›).trans more).trans (leaves.later tells)
  cases ran with
  | @ok ghost left right flow more agree isGood =>
    refine .ok (back more agree.2) ⟨congrArg after agree.1, (leaves left agree.2).1⟩ ?_
    cases flow with
    | normal => trivial
    | returned value => exact isGood.later (leaves left agree.2).2
  | error more agree =>
    exact .error (back more agree.2) ⟨congrArg after agree.1, (leaves _ agree.2).1⟩

theorem eases_current (chain : Machine → Chain) : Eases known fun m =>
    { m with environment := m.environment.restore (chain m) } :=
  fun c tells => ⟨⟨tells.book.current _, tells.truthful⟩, c.machine.extends_other _ _ _⟩

theorem eases_depth (depth : Nat → Nat) : Eases known fun m => { m with depth := depth m.depth } :=
  fun c tells => ⟨⟨tells.book.accept _ _, tells.truthful⟩, c.machine.extends_other _ _ _⟩

theorem within_concurs (agree : (bond known).agree w) (chain : Chain)
    (inner : ∀ v, (bond known).agree v → (bond known).later w v →
      Concurs (bond known) v (bond known).hasFlow (x v.left) (y v.right)) :
    Concurs (bond known) w (bond known).hasFlow (within chain x w.left) (Exec.within chain y w.right) := by
  have enters : Eases known fun m => { m with environment := m.environment.graft chain } :=
    fun c tells => ⟨⟨tells.book.graft chain, tells.truthful⟩, c.machine.extends_other _ _ _⟩
  have ran := around_concurs enters (eases_current fun _ => w.left.machine.environment.current) agree inner
  have plain : Exec.within chain y w.right = Exec.around
      (fun m => { m with environment := m.environment.graft chain })
      (fun m => { m with environment := m.environment.restore w.left.machine.environment.current })
        y w.right := by
    rw [← agree.1]
    rfl
  rw [plain]
  exact ran

theorem deeper_concurs (agree : (bond known).agree w)
    (inner : ∀ v, (bond known).agree v → (bond known).later w v →
      Concurs (bond known) v (bond known).hasFlow (x v.left) (y v.right)) :
    Concurs (bond known) w (bond known).hasFlow (deeper x w.left) (Exec.deeper y w.right) :=
  around_concurs (eases_depth (· + 1)) (eases_depth (· - 1)) agree inner

end

/-! ### Code -/

/-- The two interpreters go through programs alike, as long as the calls that they make are alike. -/
theorem steps_tandem (vouched : Vouched known ctx.bindings) (genuine : ctx.Genuine) {call : Calls}
    (calls : CallsAlike known ctx call) :
    Tandem (ClassDecl.Accepted known) (bond known) (steps ctx call) (Exec.steps ctx) where
  rounds := rfl
  lookUp id name agree := lookUp_concurs agree id name
  store id name agree knows := store_concurs agree id name knows
  declare id name agree _ knows := declare_concurs agree id name knows
  close agree orderly := close_concurs agree orderly
  getProperty name agree knows := getProperty_concurs agree knows name
  setProperty name agree room knows := setProperty_concurs agree name room knows
  print agree _ := print_concurs agree _
  invoke paren agree knowsCallee knows := invoke_concurs calls agree knowsCallee knows paren
  scope := by
    intro w body body' agree inner
    have same : (do Exec.within (← Exec.capture) body' : Exec Flow) w.right =
        Exec.within w.left.machine.environment.current body' w.right := by
      rw [agree.1]
      rfl
    have ran := within_concurs agree w.left.machine.environment.current fun v agree _ => inner v agree trivial
    rw [← same] at ran
    exact ran
  makeClass := by
    intro w decl agree _ accepted orderly values
    rw [Exec.fields_steps] at values ⊢
    exact makeClass_concurs vouched genuine agree accepted orderly values

theorem bindParams_tells (bindings : Bindings) : ∀ (params : List Param) (arguments : List Value)
    (c : Chronicle), c.Tells known → (∀ value ∈ arguments, c.machine.Knows value) →
      Tells known { c with machine := { c.machine with
        environment := Exec.bindParams bindings c.machine.environment params arguments } }
  | [], _, _, tells, _ => tells
  | _ :: _, [], _, tells, _ => tells
  | param :: params, value :: arguments, c, tells, knows => by
    obtain ⟨own, others⟩ := List.forall_mem_cons.mp knows
    unfold Exec.bindParams
    cases bindings.slot? param.id with
    | none => exact bindParams_tells bindings params arguments c tells others
    | some slot =>
      have set : Tells known { c with machine := { c.machine with
          environment := c.machine.environment.define slot value } } :=
        ⟨tells.book.setCell own _ slot, tells.truthful⟩
      exact bindParams_tells bindings params arguments _ set others

theorem body_concurs (vouched : Vouched known ctx.bindings) (genuine : ctx.Genuine) {call : Calls}
    (calls : CallsAlike known ctx call) (agree : (bond known).agree w) {f : FunctionObject}
    (orderly : Orderly.function (ClassDecl.Accepted known) f.decl)
    (bound : ∀ receiver, f.receiver = some receiver → w.left.machine.Knows (.instance receiver))
    {arguments : List Value} (knows : ∀ value ∈ arguments, w.left.machine.Knows value) :
    Concurs (bond known) w (bond known).has (body ctx call f arguments w.left)
      (Exec.body ctx f arguments w.right) := by
  have code : Orderly.stmts (ClassDecl.Accepted known) f.decl.body := by
    cases decl : f.decl with
    | mk name kind params statements =>
      rw [decl] at orderly
      exact orderly
  unfold body Exec.body
  have ran : Concurs (bond known) w (bond known).hasFlow
      (deeper (within f.closure do
        quietly <| modify fun m => { m with
          environment := Exec.bindParams ctx.bindings m.environment f.decl.params arguments }
        (steps ctx call).stmts f.decl.body) w.left)
      (Exec.deeper (Exec.within f.closure do
        modify fun m => { m with
          environment := Exec.bindParams ctx.bindings m.environment f.decl.params arguments }
        Exec.stmts ctx f.decl.body) w.right) := by
    refine deeper_concurs agree fun v agree later => within_concurs agree f.closure fun v' agree more => ?_
    have knowsHere : ∀ value ∈ arguments, v'.left.machine.Knows value :=
      (bond known).hasAll_later (later.trans more) knows
    have binds : Concurs (bond known) v' Bond.any
        (quietly (modify fun m => { m with
          environment := Exec.bindParams ctx.bindings m.environment f.decl.params arguments }) v'.left)
        ((modify fun m => { m with
          environment := Exec.bindParams ctx.bindings m.environment f.decl.params arguments } : Exec Unit)
            v'.right) := by
      refine step_concurs (fun _ _ => True) agree ?_
      exact ⟨bindParams_tells ctx.bindings f.decl.params arguments v'.left agree.2 knowsHere,
        v'.left.machine.extends_other _ _ _, trivial⟩
    refine binds.bind fun after _ _ agree _ => ?_
    have code := (steps_tandem vouched genuine calls).stmts f.decl.body code after agree trivial
    rw [Exec.stmts_steps] at code
    exact code
  refine ran.bind fun after flow later agree has => ?_
  have receiver : ∀ receiver, f.receiver = some receiver → after.left.machine.Knows (.instance receiver) :=
    fun receiver same => (bound receiver same).later later.machine
  have nil : (bond known).has after .nil := trivial
  cases f.isInitializer with
  | false =>
    cases flow with
    | normal => exact .pure agree nil
    | returned value => exact .pure agree has
  | true =>
    cases same : f.receiver with
    | some id => exact .pure agree (receiver id same)
    | none =>
      cases flow with
      | normal => exact .pure agree nil
      | returned value => exact .pure agree has

theorem calls_alike (bindings : Bindings) (vouched : Vouched known bindings) (maxDepth bound : Nat) :
    CallsAlike known (Exec.context bindings maxDepth bound) (calls bindings maxDepth bound) := by
  -- A body makes its calls with one less to go; that the function is orderly is in the book.
  induction bound with
  | zero => exact fun _ _ _ agree _ => Concurs.throw agree _
  | succ bound ih =>
    intro id arguments w agree knows
    have book := agree.2.book
    refine machine_concurs agree ?_
    exact body_concurs vouched ⟨bindings, maxDepth, bound, rfl⟩ ih agree (book.orderly id)
      (book.closed.receivers id) knows

/-- Whatever program is run, the interpreter that keeps a chronicle does what the other does, and the
chronicle tells the truth. -/
theorem interpreter_tandem {bindings : Bindings} (vouched : Vouched known bindings) (maxDepth bound : Nat) :
    Tandem (ClassDecl.Accepted known) (bond known) (interpreter bindings maxDepth bound)
      (Exec.steps (Exec.context bindings maxDepth bound)) :=
  steps_tandem vouched ⟨bindings, maxDepth, bound, rfl⟩ (calls_alike bindings vouched maxDepth bound)

end Noting
end Lox
