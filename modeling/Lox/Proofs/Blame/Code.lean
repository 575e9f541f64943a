import Lox.Proofs.Machine.Parallel
import Lox.Proofs.Twin.Operations

set_option autoImplicit false

/-! Faults of code whose tokens have an origin. On a machine all of whose functions consist of such tokens, such
code stops only at such tokens: a hidden variable, whose name has no origin, has a slot, and what has a slot
is never reported as undefined. -/

namespace Lox

/-- Code that is drawn from tokens of an origin, and whose hidden variables have slots. -/
def Likeness.drawn (origin : Token → Prop) (bindings : Bindings) : Likeness where
  token t u := t = u ∧ origin t
  named id name other otherName := id = other ∧ name = otherName ∧ origin name
  node id other := id = other
  hidden id other := id = other ∧ (bindings.slot? id).isSome = true

theorem Likeness.drawn_le {origin more : Token → Prop} {bindings after : Bindings}
    (wider : ∀ t, origin t → more t)
    (kept : ∀ id, (bindings.slot? id).isSome = true → (after.slot? id).isSome = true) :
    (drawn origin bindings).Le (drawn more after) where
  token t _ pair := ⟨pair.1, wider t pair.2⟩
  named _ name _ _ pair := ⟨pair.1, pair.2.1, wider name pair.2.2⟩
  node _ _ same := same
  hidden id _ pair := ⟨pair.1, kept id pair.2⟩

theorem Likeness.drawn_exact (origin : Token → Prop) (bindings : Bindings) :
    (drawn origin bindings).Exact where
  token _ _ pair := pair.1
  named _ _ _ _ pair := ⟨pair.1, pair.2.1⟩
  node _ _ same := same
  hidden _ _ pair := pair.1

section

variable (origin : Token → Prop) (bindings : Bindings)

/-- A machine all of whose functions are drawn from an origin. -/
def Machine.Drawn (m : Machine) : Prop :=
  ∀ id, FunctionDecl.Like (.drawn origin bindings) (m.functionAt id).decl (m.functionAt id).decl

/-- If it is for a fault, then for one at a token of an origin. -/
def Stop.At (stop : Stop) : Prop :=
  ∀ fault token, stop = .error (.faulted fault token) → origin token

/-- What code that is drawn from an origin leaves. -/
def Exec.Accounts {α : Type} : EStateM.Result Stop Machine α → Prop
  | .ok _ m => m.Drawn origin bindings
  | .error stop m => m.Drawn origin bindings ∧ stop.At origin

/-- A computation that, on a machine whose functions are drawn from an origin, adds only such functions, and
stops for faults at tokens of the origin alone. -/
def Exec.Accountable {α : Type} (x : Exec α) : Prop :=
  ∀ m : Machine, m.Drawn origin bindings → Accounts origin bindings (x m)

end

variable {origin : Token → Prop} {bindings : Bindings}

theorem Stop.at_exhausted : Stop.exhausted.At origin := by
  intro _ _ same
  cases same

theorem Stop.at_outputFailed (failure : SinkFailure) :
    Stop.At origin (.error (.outputFailed failure)) := by
  intro _ _ same
  cases same

theorem Stop.at_faulted {token : Token} (known : origin token) (fault : RuntimeFault) :
    Stop.At origin (.error (.faulted fault token)) := by
  intro _ _ same
  cases same
  exact known

namespace Machine.Drawn

variable {m : Machine}

theorem of_functions {after : Machine} (drawn : m.Drawn origin bindings)
    (same : after.functions = m.functions) : after.Drawn origin bindings := by
  intro id
  unfold functionAt
  rw [same]
  exact drawn id

theorem addFunction (drawn : m.Drawn origin bindings) {object : FunctionObject}
    (decls : FunctionDecl.Like (.drawn origin bindings) object.decl object.decl) :
    (m.addFunction object).2.Drawn origin bindings := by
  intro id
  rw [functionAt_addFunction]
  split
  · exact decls
  · exact drawn id

/-- A function that is bound to an instance has the code that it had. -/
theorem bindFunction (drawn : m.Drawn origin bindings) (id : FunctionId) (receiver : InstanceId)
    (slot : Slot) : (m.bindFunction id receiver slot).2.Drawn origin bindings := by
  have pushed : Drawn origin bindings { m with
      environment := m.environment.push (Environment.cell slot (.instance receiver)) } :=
    drawn.of_functions rfl
  exact pushed.addFunction (drawn id)

theorem getProperty (drawn : m.Drawn origin bindings) (id : InstanceId) (name : String) :
    (m.getProperty id name).2.Drawn origin bindings := by
  unfold Machine.getProperty
  dsimp only
  split
  · exact drawn
  · split
    · exact drawn.bindFunction _ id _
    · exact drawn

theorem mono {more : Token → Prop} {after : Bindings} (drawn : m.Drawn origin bindings)
    (wider : ∀ t, origin t → more t)
    (kept : ∀ id, (bindings.slot? id).isSome = true → (after.slot? id).isSome = true) :
    m.Drawn more after :=
  fun id => (drawn id).mono (Likeness.drawn_le wider kept)

end Machine.Drawn

namespace Exec.Accountable

variable {α β : Type}

theorem pure (a : α) : Accountable origin bindings (return a) :=
  fun _ drawn => drawn

theorem fail {token : Token} (known : origin token) (fault : RuntimeFault) :
    Accountable origin bindings (fail fault token : Exec α) :=
  fun _ drawn => ⟨drawn, Stop.at_faulted known fault⟩

theorem exhausted : Accountable origin bindings (throw .exhausted : Exec α) :=
  fun _ drawn => ⟨drawn, Stop.at_exhausted⟩

theorem bind {x : Exec α} {f : α → Exec β} (first : Accountable origin bindings x)
    (later : ∀ a, Accountable origin bindings (f a)) : Accountable origin bindings (x >>= f) := by
  intro m drawn
  have accounts := first m drawn
  cases result : x m with
  | ok a middle =>
    rw [result] at accounts
    rw [Outcome.bind_of_ok result]
    exact later a middle accounts
  | error stop last =>
    rw [result] at accounts
    rw [Outcome.bind_of_error result]
    exact accounts

theorem get_bind {f : Machine → Exec α} (rest : ∀ m, Accountable origin bindings (f m)) :
    Accountable origin bindings (get >>= f) :=
  fun m drawn => rest m m drawn

theorem modifyGet {change : Machine → α × Machine}
    (still : ∀ m : Machine, m.Drawn origin bindings → (change m).2.Drawn origin bindings) :
    Accountable origin bindings (modifyGet change) :=
  fun m drawn => still m drawn

/-- A computation in other surroundings, which holds the same functions. -/
theorem surrounded {x y : Exec α} (inner : Accountable origin bindings x)
    (enter leave : Machine → Machine → Machine)
    (enters : ∀ m, (enter m m).functions = m.functions)
    (leaves : ∀ m last, (leave m last).functions = last.functions)
    (goes : ∀ m, y m = match x (enter m m) with
      | .ok a last => .ok a (leave m last)
      | .error stop last => .error stop (leave m last)) : Accountable origin bindings y := by
  intro m drawn
  have accounts := inner (enter m m) (drawn.of_functions (enters m))
  rw [goes]
  generalize x (enter m m) = result at accounts ⊢
  cases result with
  | ok a last => exact accounts.of_functions (leaves m last)
  | error stop last => exact ⟨accounts.1.of_functions (leaves m last), accounts.2⟩

theorem within {x : Exec α} (inner : Accountable origin bindings x) (chain : Chain) :
    Accountable origin bindings (within chain x) :=
  inner.surrounded (fun m _ => { m with environment := m.environment.graft chain })
    (fun m last => { last with environment := last.environment.restore m.environment.current })
    (fun _ => rfl) (fun _ _ => rfl) fun _ => rfl

theorem deeper {x : Exec α} (inner : Accountable origin bindings x) :
    Accountable origin bindings (deeper x) :=
  inner.surrounded (fun m _ => { m with depth := m.depth + 1 })
    (fun _ last => { last with depth := last.depth - 1 }) (fun _ => rfl) (fun _ _ => rfl)
    fun _ => rfl

theorem repeatWhile {test : Exec Bool} {round : Exec Flow}
    (tests : Accountable origin bindings test) (runs : Accountable origin bindings round)
    (rounds : Nat) : Accountable origin bindings (repeatWhile test round rounds) := by
  induction rounds with
  | zero => exact exhausted
  | succ rounds ih =>
    rw [repeatWhile_succ]
    refine tests.bind fun holds => ?_
    cases holds with
    | false => exact pure _
    | true =>
      refine runs.bind fun flow => ?_
      cases flow with
      | normal => exact ih
      | returned value => exact pure _

end Exec.Accountable

namespace Exec

variable {token : Token}

theorem accountable_ofOperator (known : origin token) (result : Except RuntimeFault Value) :
    Accountable origin bindings (ofOperator token result) := by
  cases result with
  | ok value => exact .pure value
  | error fault => exact .fail known fault

theorem accountable_print (value : Value) : Accountable origin bindings (print value) := by
  intro m drawn
  change Accounts origin bindings (write (m.text value ++ "\n") m)
  unfold write
  have still : Machine.Drawn origin bindings
      { m with output := m.output.accept (m.text value ++ "\n") } := drawn.of_functions rfl
  cases m.output.failure? (m.text value ++ "\n") with
  | none => exact still
  | some failure => exact ⟨still, Stop.at_outputFailed failure⟩

theorem accountable_declare (ctx : Context) (id : NodeId) (name : Token) (value : Value) :
    Accountable origin bindings (declare ctx id name value) := by
  intro m drawn
  unfold declare
  cases ctx.bindings.slot? id with
  | some slot => exact drawn.of_functions rfl
  | none => exact drawn.of_functions rfl

theorem accountable_close {decl : FunctionDecl}
    (decls : FunctionDecl.Like (.drawn origin bindings) decl decl) :
    Accountable origin bindings (close decl) :=
  fun _ drawn => drawn.addFunction decls

theorem accountable_getProperty (known : origin token) (object : Value) :
    Accountable origin bindings (getProperty object token) := by
  cases object with
  | «instance» id =>
    intro m drawn
    have after := drawn.getProperty id token.lexeme
    unfold getProperty
    dsimp only
    generalize m.getProperty id token.lexeme = result at after ⊢
    obtain ⟨found, last⟩ := result
    cases found with
    | some value => exact after
    | none => exact ⟨after, Stop.at_faulted known _⟩
  | _ => exact .fail known .propertyOfOther

theorem accountable_receiver (known : origin token) (object : Value) :
    Accountable origin bindings (receiver object token) := by
  cases object with
  | «instance» id => exact .pure id
  | _ => exact .fail known .fieldOfOther

theorem accountable_checkArity (known : origin token) (expected found : Nat) :
    Accountable origin bindings (checkArity expected found token) := by
  unfold checkArity
  split
  · exact .pure ()
  · exact .fail known _

theorem accountable_addMethods (closure : Chain) (decls : List FunctionDecl)
    (alike : Functions.Like (.drawn origin bindings) decls decls) (members : Table String Value) :
    Accountable origin bindings (addMethods closure members decls) := by
  induction decls generalizing members with
  | nil => exact .pure members
  | cons method rest ih =>
    cases alike with
    | cons head tail =>
      unfold addMethods
      cases method.name with
      | none => exact ih tail members
      | some name =>
        refine (Accountable.modifyGet fun m drawn => drawn.addFunction head).bind fun id => ?_
        exact ih tail _

end Exec

/-- Settings in which calls only stop at tokens of an origin. -/
structure Context.Accountable (origin : Token → Prop) (bindings : Bindings) (ctx : Context) : Prop where
  slots : ctx.bindings = bindings
  calls : ∀ id arguments, Exec.Accountable origin bindings (ctx.call id arguments)

namespace Exec

variable {ctx : Context} {token : Token} (settings : ctx.Accountable origin bindings)
  (known : origin token)

include settings known

theorem accountable_callFunction (id : FunctionId) (arguments : List Value) :
    Accountable origin bindings (callFunction ctx id arguments token) := by
  refine .get_bind fun m => ?_
  split
  · exact .fail known .tooDeep
  · exact settings.calls id arguments

theorem accountable_construct (id : ClassId) (arguments : List Value) :
    Accountable origin bindings (construct ctx id arguments token) := by
  unfold construct
  refine .get_bind fun first => .get_bind fun second => .get_bind fun third => ?_
  refine (accountable_checkArity known _ _).bind fun _ => ?_
  refine (Accountable.modifyGet fun m drawn => drawn.of_functions rfl).bind fun fresh => ?_
  cases second.initializer? (first.classAt id) with
  | none => exact .pure _
  | some f =>
    cases (first.classAt id).thisSlot with
    | none => exact .pure _
    | some slot =>
      refine (Accountable.modifyGet fun m drawn => drawn.bindFunction f fresh slot).bind
        fun bound => ?_
      exact (accountable_callFunction settings known bound arguments).bind fun _ => .pure _

theorem accountable_invoke (callee : Value) (arguments : List Value) :
    Accountable origin bindings (invoke ctx callee arguments token) := by
  cases callee with
  | function id =>
    refine .get_bind fun m => ?_
    exact (accountable_checkArity known _ _).bind fun _ =>
      accountable_callFunction settings known id arguments
  | «class» id => exact accountable_construct settings known id arguments
  | _ => exact .fail known .notCallable

end Exec

namespace Guarded

open Exec

variable {ctx : Context}

/-- What has a slot is never undefined: where the chain does not hold the slot, the alarm is raised, and it
blames no token. -/
theorem accountable_lookUp_of_slot (name : Token) {id : NodeId} {slot : Slot}
    (bound : ctx.bindings.slot? id = some slot) :
    Accountable origin bindings (lookUp quiet ctx id name) := by
  intro m drawn
  unfold lookUp
  rw [bound]
  dsimp only
  cases found : m.environment.find? m.environment.current slot with
  | none => exact ⟨drawn, Stop.at_exhausted⟩
  | some frame =>
    obtain ⟨_, _, _, held, -⟩ := Environment.find?_eq_some_iff.mp found
    obtain ⟨value, isValue⟩ := Option.isSome_iff_exists.mp held
    have read : m.environment.get? slot = some value :=
      (Environment.read?_of_find? found).trans isValue
    dsimp only
    unfold Exec.lookUp
    simp only [bound, read]
    exact drawn

theorem accountable_lookUp {name : Token} (known : origin name) (id : NodeId) :
    Accountable origin bindings (lookUp quiet ctx id name) := by
  cases bound : ctx.bindings.slot? id with
  | some slot => exact accountable_lookUp_of_slot name bound
  | none =>
    intro m drawn
    unfold lookUp
    rw [bound]
    dsimp only
    cases m.environment.getGlobal? name.lexeme with
    | some value => exact drawn
    | none => exact ⟨drawn, Stop.at_faulted known _⟩

theorem accountable_store {name : Token} (known : origin name) (id : NodeId) (value : Value) :
    Accountable origin bindings (store quiet ctx id name value) := by
  intro m drawn
  unfold store
  cases ctx.bindings.slot? id with
  | some slot =>
    dsimp only
    cases m.environment.find? m.environment.current slot with
    | some frame => exact drawn.of_functions rfl
    | none => exact ⟨drawn, Stop.at_exhausted⟩
  | none =>
    dsimp only
    split
    · exact drawn.of_functions rfl
    · exact ⟨drawn, Stop.at_faulted known _⟩

/-- Each step of code that is drawn from an origin. -/
theorem parallel_accountable (settings : ctx.Accountable origin bindings) :
    Parallel (.drawn origin bindings) quiet quiet ctx ctx
      fun x _ => Accountable origin bindings x where
  pure := .pure
  bind first later := first.bind later
  capture := fun _ drawn => drawn
  within chain _ _ inner := inner.within chain
  repeatWhile tests runs := tests.repeatWhile runs _
  kind pair := congrArg Token.kind pair.1
  lexeme pair := congrArg Token.lexeme pair.1
  ofOperator pair := accountable_ofOperator pair.2
  lookUp names := by
    obtain ⟨rfl, rfl, known⟩ := names
    exact accountable_lookUp known _
  store names := by
    obtain ⟨rfl, rfl, known⟩ := names
    exact accountable_store known _
  declare _ := accountable_declare ctx _ _
  lookUpHidden ids t _ := by
    obtain ⟨slot, bound⟩ := Option.isSome_iff_exists.mp ids.2
    rw [← settings.slots] at bound
    exact accountable_lookUp_of_slot t bound
  declareHidden _ t _ := accountable_declare ctx _ t
  invoke pair := accountable_invoke settings pair.2
  close decls := by
    cases decls.eq (Likeness.drawn_exact origin bindings)
    exact accountable_close decls
  getProperty pair := accountable_getProperty pair.2
  receiver pair := accountable_receiver pair.2
  setField _ _ _ := fun _ drawn => drawn.of_functions rfl
  print := accountable_print
  addMethods closure members _ _ decls := by
    cases decls.eq (Likeness.drawn_exact origin bindings)
    exact accountable_addMethods closure _ decls members
  addClass _ _ _ := .modifyGet fun _ drawn => drawn.of_functions rfl

/-- Calls, by induction on the bound: the function that is called is one of the machine. -/
theorem accountable_call (limit bound : Nat) (id : FunctionId) (arguments : List Value) :
    Accountable origin bindings (call quiet bindings limit bound id arguments) := by
  induction bound generalizing id arguments with
  | zero => exact .exhausted
  | succ bound ih =>
    have settings : Context.Accountable origin bindings
        ⟨bindings, limit, bound, call quiet bindings limit bound⟩ := ⟨rfl, ih⟩
    intro m drawn
    have runs := (parallel_accountable settings).body .deeper
      (fun _ _ => fun _ drawn => drawn.of_functions rfl) (drawn id) rfl rfl arguments
    exact runs m drawn

/-- A program that is drawn from an origin stops for faults at tokens of the origin alone. -/
theorem accountable_program {program : List Stmt}
    (alike : Stmts.Like (.drawn origin bindings) program program) (limit bound : Nat) :
    Accountable origin bindings (Guarded.program quiet (context quiet bindings limit bound) program) := by
  have settings : Context.Accountable origin bindings (context quiet bindings limit bound) :=
    ⟨rfl, accountable_call limit bound⟩
  have flushes : Accountable origin bindings flush := by
    intro m drawn
    unfold flush
    cases m.output.flushFailure? with
    | none => exact drawn
    | some failure => exact ⟨drawn, Stop.at_outputFailed failure⟩
  intro m drawn
  have runs := (parallel_accountable settings).stmts alike m drawn
  unfold Guarded.program
  generalize stmts quiet (context quiet bindings limit bound) program m = result at runs ⊢
  cases result with
  | ok flow last => exact flushes last runs
  | error stop last =>
    obtain ⟨still, blamed⟩ := runs
    cases stop with
    | exhausted => exact ⟨still, blamed⟩
    | error e =>
      have flushed := flushes last still
      dsimp only
      generalize flush last = result at flushed ⊢
      cases result with
      | ok done final => exact ⟨flushed, blamed⟩
      | error stop final => exact flushed

end Guarded
end Lox
