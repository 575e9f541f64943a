import Lox.Proofs.Machine.Keeps
import Lox.Proofs.Twin.Machine

set_option autoImplicit false

/-! Computations that do the same on machines that do the same: they yield the same, or stop for the same
reason, and leave machines that do the same again. Sequences, frames, calls and loops do if their parts
do. Positions are seen only in the tokens of faults, and slots not at all. -/

namespace Lox

/-- Reasons to stop that say the same at corresponding positions. -/
inductive Stop.Twin (positions : Nat → Nat → Prop) : Stop → Stop → Prop
  | exhausted : Twin positions .exhausted .exhausted
  | faulted (fault : RuntimeFault) {token token' : Token} (tokens : Token.Twin positions token token') :
      Twin positions (.error (.faulted fault token)) (.error (.faulted fault token'))

namespace Exec

section

variable (w : Correspondence) (start start' : Sink) {α : Type}

/-- Two outcomes that are the same, apart from machines and positions that are twins. -/
inductive Meets : EStateM.Result Stop Machine α → EStateM.Result Stop Machine α → Prop
  | ok {a : α} {m n : Machine} (twin : Machine.Twin w start start' m n) :
      Meets (.ok a m) (.ok a n)
  | error {stop stop' : Stop} {m n : Machine} (stops : Stop.Twin w.positions stop stop')
      (twin : Machine.Twin w start start' m n) : Meets (.error stop m) (.error stop' n)

/-- Computations with outcomes that meet, from all machines that are twins. -/
def Twins (x y : Exec α) : Prop :=
  ∀ m n, Machine.Twin w start start' m n → Meets w start start' (x m) (y n)

end

namespace Twins

variable {w : Correspondence} {start start' : Sink} {α β : Type}

theorem pure (a : α) : Twins w start start' (return a) (return a) :=
  fun _ _ twin => .ok twin

theorem fail {fault : RuntimeFault} {token token' : Token}
    (tokens : Token.Twin w.positions token token') :
    Twins w start start' (Exec.fail fault token : Exec α) (Exec.fail fault token') :=
  fun _ _ twin => .error (.faulted fault tokens) twin

theorem exhausted : Twins w start start' (throw .exhausted : Exec α) (throw .exhausted) :=
  fun _ _ twin => .error .exhausted twin

theorem bind {x y : Exec α} {f g : α → Exec β} (first : Twins w start start' x y)
    (later : ∀ a, Twins w start start' (f a) (g a)) :
    Twins w start start' (x >>= f) (y >>= g) := by
  intro m n twin
  have meets := first m n twin
  change Meets w start start' (EStateM.bind x f m) (EStateM.bind y g n)
  unfold EStateM.bind
  generalize x m = one at meets ⊢
  generalize y n = two at meets ⊢
  cases meets with
  | ok twin => exact later _ _ _ twin
  | error stops twin => exact .error stops twin

theorem map {x y : Exec α} (f : α → β) (twins : Twins w start start' x y) :
    Twins w start start' (f <$> x) (f <$> y) := by
  rw [map_eq_pure_bind, map_eq_pure_bind]
  exact twins.bind fun a => pure (f a)

theorem get_bind {f g : Machine → Exec α}
    (rest : ∀ m n, Machine.Twin w start start' m n → Twins w start start' (f m) (g n)) :
    Twins w start start' (get >>= f) (get >>= g) :=
  fun m n twin => rest m n twin m n twin

theorem modify {change change' : Machine → Machine}
    (changes : ∀ m n, Machine.Twin w start start' m n →
      Machine.Twin w start start' (change m) (change' n)) :
    Twins w start start' (modify change) (modify change') :=
  fun m n twin => .ok (changes m n twin)

theorem modifyGet {change change' : Machine → α × Machine}
    (changes : ∀ m n, Machine.Twin w start start' m n →
      (change m).1 = (change' n).1 ∧ Machine.Twin w start start' (change m).2 (change' n).2) :
    Twins w start start' (modifyGet change) (modifyGet change') := by
  intro m n twin
  obtain ⟨same, after⟩ := changes m n twin
  change Meets w start start' (.ok (change m).1 (change m).2) (.ok (change' n).1 (change' n).2)
  rw [same]
  exact .ok after

theorem within (chain : Chain) {x y : Exec α} (inner : Twins w start start' x y) :
    Twins w start start' (Exec.within chain x) (Exec.within chain y) := by
  intro m n twin
  have meets := inner _ _ (twin.withEnvironment (twin.environment.graft chain))
  have back {m' n' : Machine} (twin' : Machine.Twin w start start' m' n') :
      Machine.Twin w start start'
        { m' with environment := m'.environment.restore m.environment.current }
        { n' with environment := n'.environment.restore n.environment.current } := by
    rw [twin.environment.current]
    exact twin'.withEnvironment (twin'.environment.at_chain _)
  unfold Exec.within
  dsimp only
  generalize x _ = one at meets ⊢
  generalize y _ = two at meets ⊢
  cases meets with
  | ok twin' => exact .ok (back twin')
  | error stops twin' => exact .error stops (back twin')

theorem deeper {x y : Exec α} (inner : Twins w start start' x y) :
    Twins w start start' (Exec.deeper x) (Exec.deeper y) := by
  intro m n twin
  have meets := inner _ _ (twin.atDepth (congrArg (· + 1) twin.depth))
  unfold Exec.deeper
  generalize x _ = one at meets ⊢
  generalize y _ = two at meets ⊢
  cases meets with
  | ok twin' => exact .ok (twin'.atDepth (congrArg (· - 1) twin'.depth))
  | error stops twin' => exact .error stops (twin'.atDepth (congrArg (· - 1) twin'.depth))

theorem repeatWhile {test test' : Exec Bool} {round round' : Exec Flow}
    (tests : Twins w start start' test test') (runs : Twins w start start' round round')
    (rounds : Nat) : Twins w start start' (Exec.repeatWhile test round rounds)
      (Exec.repeatWhile test' round' rounds) := by
  induction rounds with
  | zero => exact exhausted
  | succ rounds ih =>
      rw [Exec.repeatWhile_succ, Exec.repeatWhile_succ]
      refine tests.bind fun holds => ?_
      cases holds with
      | false => exact pure _
      | true =>
          refine runs.bind fun flow => ?_
          cases flow with
          | normal => exact ih
          | returned value => exact pure _

end Twins

section

variable {w : Correspondence} {start start' : Sink}

theorem capture_twins : Twins w start start' capture capture := by
  intro m n twin
  unfold capture
  rw [twin.environment.current]
  exact .ok twin

theorem ofOperator_twins {token token' : Token} (tokens : Token.Twin w.positions token token')
    (result : Except RuntimeFault Value) :
    Twins w start start' (ofOperator token result) (ofOperator token' result) := by
  cases result with
  | ok value => exact .pure value
  | error fault => exact .fail tokens

theorem write_twins (text : String) : Twins w start start' (write text) (write text) := by
  intro m n twin
  obtain ⟨takes, takes'⟩ := twin.output.failure text
  unfold write
  rw [takes, takes']
  exact .ok (twin.accept text)

theorem print_twins (value : Value) : Twins w start start' (print value) (print value) := by
  refine .get_bind fun m n twin => ?_
  rw [twin.text_eq value]
  exact write_twins _

theorem close_twins {decl decl' : FunctionDecl} (decls : FunctionDecl.Like w.likeness decl decl') :
    Twins w start start' (close decl) (close decl') := by
  intro m n twin
  obtain ⟨same, after⟩ := twin.addFunction
    (f := ⟨decl, m.environment.current, none⟩) (g := ⟨decl', n.environment.current, none⟩)
    ⟨decls, twin.environment.current, rfl⟩
  unfold close
  dsimp only
  rw [same]
  exact .ok after

theorem addMethods_twins (closure : Chain) : ∀ {decls decls' : List FunctionDecl},
    Functions.Like w.likeness decls decls' → ∀ members : Table String Value,
      Twins w start start' (addMethods closure members decls) (addMethods closure members decls')
  | _, _, .nil, members => .pure members
  | _, _, .cons head tail, members => by
      have object : FunctionObject.Twin w ⟨_, closure, none⟩ ⟨_, closure, none⟩ := ⟨head, rfl, rfl⟩
      unfold addMethods
      cases head with
      | mk names parameters bodies =>
          cases names with
          | none => exact addMethods_twins closure tail members
          | some tokens =>
              dsimp only [FunctionDecl.name]
              rw [tokens.lexeme]
              refine (Twins.modifyGet fun m n twin => twin.addFunction object).bind fun id => ?_
              exact addMethods_twins closure tail _

theorem receiver_twins (object : Value) {name name' : Token}
    (names : Token.Twin w.positions name name') :
    Twins w start start' (receiver object name) (receiver object name') := by
  cases object with
  | «instance» id => exact .pure id
  | _ => exact .fail names

theorem checkArity_twins (expected found : Nat) {paren paren' : Token}
    (parens : Token.Twin w.positions paren paren') :
    Twins w start start' (checkArity expected found paren) (checkArity expected found paren') := by
  unfold checkArity
  split
  · exact .pure ()
  · exact .fail parens

end

section

variable {w : Correspondence} {start start' : Sink}
  (injective : ∀ slot slot' wanted wanted', w.slots slot slot' → w.slots wanted wanted' →
    (slot = wanted ↔ slot' = wanted'))
include injective

theorem getProperty_twins (object : Value) {name name' : Token}
    (names : Token.Twin w.positions name name') :
    Twins w start start' (getProperty object name) (getProperty object name') := by
  cases object with
  | «instance» id =>
      intro m n twin
      obtain ⟨same, after⟩ := twin.getProperty injective id name.lexeme
      unfold getProperty
      rw [← names.lexeme]
      dsimp only
      generalize m.getProperty id name.lexeme = one at same after ⊢
      generalize n.getProperty id name.lexeme = two at same after ⊢
      obtain ⟨found, m'⟩ := one
      obtain ⟨found', n'⟩ := two
      cases same
      cases found with
      | some value => exact .ok after
      | none => exact .error (.faulted _ names) after
  | _ => exact .fail names

end

/-- Settings in which code that is alike does the same. -/
structure Context.Twin (w : Correspondence) (start start' : Sink) (ctx ctx' : Context) : Prop where
  binds : w.Binds ctx.bindings ctx'.bindings
  maxDepth : ctx.maxDepth = ctx'.maxDepth
  rounds : ctx.rounds = ctx'.rounds
  calls : ∀ id arguments, Twins w start start' (ctx.call id arguments) (ctx'.call id arguments)

section

variable {w : Correspondence} {start start' : Sink} {ctx ctx' : Context}

theorem callFunction_twins (settings : Context.Twin w start start' ctx ctx') (id : FunctionId)
    (arguments : List Value) {paren paren' : Token} (parens : Token.Twin w.positions paren paren') :
    Twins w start start' (callFunction ctx id arguments paren)
      (callFunction ctx' id arguments paren') := by
  refine .get_bind fun m n twin => ?_
  rw [settings.maxDepth, twin.depth]
  split
  · exact .fail parens
  · exact settings.calls id arguments

theorem construct_twins (settings : Context.Twin w start start' ctx ctx') (id : ClassId)
    (arguments : List Value) {paren paren' : Token} (parens : Token.Twin w.positions paren paren') :
    Twins w start start' (construct ctx id arguments paren)
      (construct ctx' id arguments paren') := by
  unfold construct
  refine .get_bind fun m n twin => ?_
  have object := twin.classes id
  refine .get_bind fun m' n' twin' => ?_
  rw [twin'.initializer?_eq object]
  refine .get_bind fun m'' n'' twin'' => ?_
  rw [twin''.arityOfClass_eq object]
  refine (checkArity_twins _ _ parens).bind fun _ => ?_
  refine (Twins.modifyGet fun m n twin => twin.addInstance id).bind fun fresh => ?_
  have slots := object.thisSlot
  generalize (m.classAt id).thisSlot = slot, (n.classAt id).thisSlot = slot' at slots ⊢
  cases n'.initializer? (n.classAt id) with
  | none => exact .pure _
  | some f =>
      cases slots with
      | none => exact .pure _
      | some pair =>
          refine (Twins.modifyGet fun m n twin =>
            twin.bindFunction settings.binds.injective f fresh pair).bind fun bound => ?_
          exact (callFunction_twins settings bound arguments parens).bind fun _ => .pure _

theorem invoke_twins (settings : Context.Twin w start start' ctx ctx') (callee : Value)
    (arguments : List Value) {paren paren' : Token} (parens : Token.Twin w.positions paren paren') :
    Twins w start start' (invoke ctx callee arguments paren)
      (invoke ctx' callee arguments paren') := by
  cases callee with
  | function id =>
      refine .get_bind fun m n twin => ?_
      rw [(twin.functions id).arity_eq]
      exact (checkArity_twins _ _ parens).bind fun _ => callFunction_twins settings id arguments parens
  | «class» id => exact construct_twins settings id arguments parens
  | _ => exact .fail parens

/-- A new local variable has no other name than its slot. -/
theorem declare_twins_of_slot (settings : Context.Twin w start start' ctx ctx') {id other : NodeId}
    (name name' : Token) {slot slot' : Slot} (bound : ctx.bindings.slot? id = some slot)
    (bound' : ctx'.bindings.slot? other = some slot') (slots : w.slots slot slot') (value : Value) :
    Twins w start start' (declare ctx id name value) (declare ctx' other name' value) := by
  intro m n twin
  unfold declare
  rw [bound, bound']
  refine .ok (twin.withEnvironment ?_)
  unfold Environment.define
  rw [twin.environment.current]
  exact twin.environment.setCell settings.binds.injective _ slots value

theorem declare_twins (settings : Context.Twin w start start' ctx ctx') {id other : NodeId}
    (nodes : w.nodes id other) {name name' : Token} (names : Token.Twin w.positions name name')
    (value : Value) :
    Twins w start start' (declare ctx id name value) (declare ctx' other name' value) := by
  rcases settings.binds.both nodes with ⟨slot, slot', bound, bound', slots⟩ | ⟨bound, bound'⟩
  · exact declare_twins_of_slot settings name name' bound bound' slots value
  · intro m n twin
    unfold declare
    rw [bound, bound', names.lexeme]
    exact .ok (twin.withEnvironment (twin.environment.defineGlobal _ value))

end

end Exec

namespace Guarded

open Exec

/-- The alarm that ends a run as if it had exceeded its bound. -/
def quiet : Alarm := fun _ _ => .exhausted

variable {w : Correspondence} {start start' : Sink} {ctx ctx' : Context} {id other : NodeId}

/-- A local variable has no other name than its slot. -/
theorem lookUp_twins_of_slot (name name' : Token) {slot slot' : Slot}
    (bound : ctx.bindings.slot? id = some slot) (bound' : ctx'.bindings.slot? other = some slot')
    (slots : w.slots slot slot') :
    Twins w start start' (lookUp quiet ctx id name) (lookUp quiet ctx' other name') := by
  intro m n twin
  unfold lookUp
  rw [bound, bound']
  dsimp only
  have same := twin.environment.find?_eq slots n.environment.current
  rw [twin.environment.current, same]
  cases found : n.environment.find? n.environment.current slot' with
  | none => exact .error .exhausted twin
  | some frame =>
      obtain ⟨_, _, _, held, -⟩ := Environment.find?_eq_some_iff.mp found
      obtain ⟨value, isValue⟩ := Option.isSome_iff_exists.mp held
      have read : n.environment.get? slot' = some value :=
        (Environment.read?_of_find? found).trans isValue
      dsimp only
      unfold Exec.lookUp
      simp only [bound, bound', twin.environment.get?_eq slots, read]
      exact .ok twin

theorem store_twins_of_slot (settings : Context.Twin w start start' ctx ctx') (name name' : Token)
    {slot slot' : Slot} (bound : ctx.bindings.slot? id = some slot)
    (bound' : ctx'.bindings.slot? other = some slot') (slots : w.slots slot slot') (value : Value) :
    Twins w start start' (store quiet ctx id name value) (store quiet ctx' other name' value) := by
  intro m n twin
  unfold store
  rw [bound, bound']
  dsimp only
  rw [twin.environment.current, twin.environment.find?_eq slots]
  cases n.environment.find? n.environment.current slot' with
  | none => exact .error .exhausted twin
  | some frame =>
      exact .ok (twin.withEnvironment
        (twin.environment.setCell settings.binds.injective frame slots value))

theorem lookUp_twins (settings : Context.Twin w start start' ctx ctx') (nodes : w.nodes id other)
    {name name' : Token} (names : Token.Twin w.positions name name') :
    Twins w start start' (lookUp quiet ctx id name) (lookUp quiet ctx' other name') := by
  rcases settings.binds.both nodes with ⟨slot, slot', bound, bound', slots⟩ | ⟨bound, bound'⟩
  · exact lookUp_twins_of_slot name name' bound bound' slots
  · intro m n twin
    unfold lookUp Environment.getGlobal?
    rw [bound, bound', names.lexeme, twin.environment.globals]
    dsimp only
    cases n.environment.globals.get? name'.lexeme with
    | some value => exact .ok twin
    | none => exact .error (.faulted _ names) twin

theorem store_twins (settings : Context.Twin w start start' ctx ctx') (nodes : w.nodes id other)
    {name name' : Token} (names : Token.Twin w.positions name name') (value : Value) :
    Twins w start start' (store quiet ctx id name value) (store quiet ctx' other name' value) := by
  rcases settings.binds.both nodes with ⟨slot, slot', bound, bound', slots⟩ | ⟨bound, bound'⟩
  · exact store_twins_of_slot settings name name' bound bound' slots value
  · intro m n twin
    unfold store
    rw [bound, bound', names.lexeme, twin.environment.globals]
    dsimp only
    split
    · exact .ok (twin.withEnvironment (twin.environment.defineGlobal _ value))
    · exact .error (.faulted _ names) twin

end Guarded
end Lox
