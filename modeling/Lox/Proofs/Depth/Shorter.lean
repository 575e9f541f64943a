import Lox.Proofs.Machine.Frank
import Lox.Proofs.Machine.Parallel
import Lox.Proofs.Trace.Balance

set_option autoImplicit false

/-! Runs with less room than others. A run with a lower limit on nested calls, or a lower bound on rounds
and calls, ends like the other one, or it is cut short: it stops because of its limits, and what it has
written is the beginning of what the other run writes. -/

namespace Lox

/-- What a sink has accepted is the beginning of what another one has. -/
def Sink.Begins (one two : Sink) : Prop :=
  ∃ bytes, two.accepted = one.accepted ++ bytes

theorem Sink.Begins.refl (sink : Sink) : sink.Begins sink :=
  ⟨ByteArray.empty, ByteArray.append_empty.symm⟩

theorem Sink.Begins.trans {one two three : Sink} (first : one.Begins two) (second : two.Begins three) :
    one.Begins three := by
  obtain ⟨bytes, early⟩ := first
  obtain ⟨more, late⟩ := second
  refine ⟨bytes ++ more, ?_⟩
  rw [late, early, ByteArray.append_assoc]

theorem Sink.begins_accept (sink : Sink) (text : String) : sink.Begins (sink.accept text) := by
  unfold Sink.accept
  cases sink.room? with
  | none => exact ⟨text.toUTF8, rfl⟩
  | some room => exact ⟨text.toUTF8.extract 0 room, rfl⟩

namespace Exec

variable {α β : Type}

/-! ### Output only grows -/

/-- Whatever its outcome, a computation only adds to the output. -/
def Adds (x : Exec α) : Prop :=
  ∀ m : Machine, m.output.Begins (Outcome.state (x m)).output

theorem adds_of_silent {x : Exec α} (silent : ∀ m, (Outcome.state (x m)).output = m.output) :
    Adds x := by
  intro m
  rw [silent]
  exact Sink.Begins.refl _

theorem adds_pure (a : α) : Adds (return a) :=
  adds_of_silent fun _ => rfl

theorem adds_throw (stop : Stop) : Adds (throw stop : Exec α) :=
  adds_of_silent fun _ => rfl

theorem Adds.bind {x : Exec α} {f : α → Exec β} (first : Adds x) (later : ∀ a, Adds (f a)) :
    Adds (x >>= f) := by
  intro m
  have begins := first m
  cases result : x m with
  | ok a middle =>
    rw [result] at begins
    rw [Outcome.bind_of_ok result]
    exact begins.trans (later a middle)
  | error stop last =>
    rw [result] at begins
    rw [Outcome.bind_of_error result]
    exact begins

theorem Adds.within {x : Exec α} (adds : Adds x) (chain : Chain) : Adds (within chain x) := by
  intro m
  have begins := adds { m with environment := m.environment.graft chain }
  unfold Exec.within
  dsimp only
  generalize x _ = result at begins ⊢
  cases result <;> exact begins

theorem Adds.deeper {x : Exec α} (adds : Adds x) : Adds (deeper x) := by
  intro m
  have begins := adds { m with depth := m.depth + 1 }
  unfold Exec.deeper
  generalize x _ = result at begins ⊢
  cases result <;> exact begins

theorem Adds.repeatWhile {test : Exec Bool} {round : Exec Flow} (tests : Adds test)
    (runs : Adds round) (rounds : Nat) : Adds (repeatWhile test round rounds) := by
  induction rounds with
  | zero => exact adds_throw _
  | succ rounds ih =>
    rw [repeatWhile_succ]
    refine tests.bind fun holds => ?_
    cases holds with
    | false => exact adds_pure _
    | true =>
      refine runs.bind fun flow => ?_
      cases flow with
      | normal => exact ih
      | returned value => exact adds_pure _

theorem adds_print (value : Value) : Adds (print value) := by
  intro m
  change m.output.Begins (Outcome.state (write (m.text value ++ "\n") m)).output
  unfold write
  cases m.output.failure? (m.text value ++ "\n") <;> exact Sink.begins_accept _ _

theorem adds_ofOperator (token : Token) (result : Except RuntimeFault Value) :
    Adds (ofOperator token result) := by
  cases result <;> exact adds_of_silent fun _ => rfl

theorem adds_lookUp (ctx : Context) (id : NodeId) (name : Token) : Adds (lookUp ctx id name) := by
  refine adds_of_silent fun m => ?_
  rw [lookUp_state]

theorem adds_store (ctx : Context) (id : NodeId) (name : Token) (value : Value) :
    Adds (store ctx id name value) := by
  refine adds_of_silent fun m => ?_
  unfold store
  cases ctx.bindings.slot? id with
  | some slot =>
    dsimp only
    cases m.environment.find? m.environment.current slot <;> rfl
  | none =>
    dsimp only
    cases m.environment.globals.contains name.lexeme <;> rfl

theorem adds_declare (ctx : Context) (id : NodeId) (name : Token) (value : Value) :
    Adds (declare ctx id name value) := by
  refine adds_of_silent fun m => ?_
  unfold declare
  cases ctx.bindings.slot? id <;> rfl

theorem adds_getProperty (object : Value) (name : Token) : Adds (getProperty object name) := by
  refine adds_of_silent fun m => ?_
  have silent (id : InstanceId) : (m.getProperty id name.lexeme).2.output = m.output := by
    unfold Machine.getProperty
    dsimp only
    split
    · rfl
    · split <;> rfl
  unfold getProperty
  cases object with
  | «instance» id =>
    have same := silent id
    dsimp only
    split
    · next found => rw [found] at same; exact same
    · next found => rw [found] at same; exact same
  | _ => rfl

theorem adds_receiver (object : Value) (name : Token) : Adds (receiver object name) := by
  cases object <;> exact adds_of_silent fun _ => rfl

theorem adds_checkArity (expected found : Nat) (paren : Token) :
    Adds (checkArity expected found paren) := by
  unfold checkArity
  split <;> exact adds_of_silent fun _ => rfl

theorem adds_addMethods (closure : Chain) (members : Table String Value)
    (decls : List FunctionDecl) : Adds (addMethods closure members decls) := by
  refine adds_of_silent fun m => ?_
  obtain ⟨functions, same⟩ := addMethods_state closure decls members m
  rw [same]

/-! ### Runs that are cut short -/

/-- Two outcomes that are the same, or of which the first is cut short: it stops for a certain reason, with
the beginning of the other's output. -/
inductive Shortens (cut : Stop → Prop) :
    EStateM.Result Stop Machine α → EStateM.Result Stop Machine α → Prop
  | same (result : EStateM.Result Stop Machine α) : Shortens cut result result
  | short {stop : Stop} {m : Machine} {result : EStateM.Result Stop Machine α} (isCut : cut stop)
      (begins : m.output.Begins (Outcome.state result).output) :
      Shortens cut (.error stop m) result

theorem Shortens.same_or_short {cut : Stop → Prop} {one two : EStateM.Result Stop Machine α}
    (shortens : Shortens cut one two) : one = two ∨ ∃ stop m, one = .error stop m ∧ cut stop ∧
      m.output.Begins (Outcome.state two).output := by
  cases shortens with
  | same => exact .inl rfl
  | short isCut begins => exact .inr ⟨_, _, rfl, isCut, begins⟩

/-- A computation that goes like another one as far as it is not cut short. -/
structure Shorter (cut : Stop → Prop) (x y : Exec α) : Prop where
  shortens : ∀ m, Shortens cut (x m) (y m)
  adds : Adds y

namespace Shorter

variable {cut : Stop → Prop}

theorem of_adds {x : Exec α} (adds : Adds x) : Shorter cut x x :=
  ⟨fun m => .same (x m), adds⟩

theorem of_cut {stop : Stop} (isCut : cut stop) {y : Exec α} (adds : Adds y) :
    Shorter cut (throw stop) y :=
  ⟨fun m => .short isCut (adds m), adds⟩

theorem bind {x y : Exec α} {f g : α → Exec β} (first : Shorter cut x y)
    (later : ∀ a, Shorter cut (f a) (g a)) : Shorter cut (x >>= f) (y >>= g) := by
  have adds := first.adds.bind fun a => (later a).adds
  refine ⟨fun m => ?_, adds⟩
  have whole := first.shortens m
  have more (a : α) (middle : Machine) := (later a).adds middle
  change Shortens cut (EStateM.bind x f m) (EStateM.bind y g m)
  unfold EStateM.bind
  generalize x m = one at whole ⊢
  generalize y m = two at whole ⊢
  cases whole with
  | same =>
    cases one with
    | ok a middle => exact (later a).shortens middle
    | error stop last => exact .same _
  | short isCut begins =>
    refine .short isCut ?_
    cases two with
    | ok a middle => exact begins.trans (more a middle)
    | error stop last => exact begins

theorem get_bind {f g : Machine → Exec α} (rest : ∀ m, Shorter cut (f m) (g m)) :
    Shorter cut (get >>= f) (get >>= g) :=
  ⟨fun m => (rest m).shortens m, fun m => (rest m).adds m⟩

theorem within {x y : Exec α} (inner : Shorter cut x y) (chain : Chain) :
    Shorter cut (within chain x) (within chain y) := by
  refine ⟨fun m => ?_, inner.adds.within chain⟩
  have whole := inner.shortens { m with environment := m.environment.graft chain }
  unfold Exec.within
  dsimp only
  generalize x _ = one at whole ⊢
  generalize y _ = two at whole ⊢
  cases whole with
  | same => exact .same _
  | short isCut begins =>
    refine .short isCut ?_
    cases two <;> exact begins

theorem deeper {x y : Exec α} (inner : Shorter cut x y) : Shorter cut (deeper x) (deeper y) := by
  refine ⟨fun m => ?_, inner.adds.deeper⟩
  have whole := inner.shortens { m with depth := m.depth + 1 }
  unfold Exec.deeper
  generalize x _ = one at whole ⊢
  generalize y _ = two at whole ⊢
  cases whole with
  | same => exact .same _
  | short isCut begins =>
    refine .short isCut ?_
    cases two <;> exact begins

theorem repeatWhile {test test' : Exec Bool} {round round' : Exec Flow}
    (tests : Shorter cut test test') (runs : Shorter cut round round') {rounds rounds' : Nat}
    (fewer : rounds ≤ rounds') (patience : rounds < rounds' → cut .exhausted) :
    Shorter cut (repeatWhile test round rounds) (repeatWhile test' round' rounds') := by
  induction rounds generalizing rounds' with
  | zero =>
    have adds := tests.adds.repeatWhile runs.adds rounds'
    cases rounds' with
    | zero => exact of_adds adds
    | succ more => exact of_cut (patience (Nat.succ_pos more)) adds
  | succ rounds ih =>
    obtain ⟨more, rfl⟩ : ∃ more, rounds' = more + 1 := ⟨rounds' - 1, by omega⟩
    rw [repeatWhile_succ, repeatWhile_succ]
    refine tests.bind fun holds => ?_
    cases holds with
    | false => exact of_adds (adds_pure _)
    | true =>
      refine runs.bind fun flow => ?_
      cases flow with
      | normal => exact ih (by omega) fun less => patience (by omega)
      | returned value => exact of_adds (adds_pure _)

end Shorter

/-- A context with less room than another. Calls that would be too deep for it, and rounds that would be
too many, cut a run short. -/
structure Narrower (cut : Stop → Prop) (ctx ctx' : Context) : Prop where
  bindings : ctx.bindings = ctx'.bindings
  depth : ctx.maxDepth ≤ ctx'.maxDepth
  overflow : ctx.maxDepth < ctx'.maxDepth → ∀ token, cut (.error (.faulted .tooDeep token))
  rounds : ctx.rounds ≤ ctx'.rounds
  patience : ctx.rounds < ctx'.rounds → cut .exhausted
  calls : ∀ id arguments, Shorter cut (ctx.call id arguments) (ctx'.call id arguments)

section

variable {cut : Stop → Prop} {ctx ctx' : Context} (narrower : Narrower cut ctx ctx')
include narrower

/-- The check at a call is the only place where the limit is looked at. -/
theorem callFunction_shorter (id : FunctionId) (arguments : List Value) (paren : Token) :
    Shorter cut (callFunction ctx id arguments paren) (callFunction ctx' id arguments paren) := by
  have call := narrower.calls id arguments
  refine .get_bind fun m => ?_
  by_cases full : ctx.maxDepth ≤ m.depth
  · by_cases full' : ctx'.maxDepth ≤ m.depth
    · rw [if_pos full, if_pos full']
      exact .of_adds (adds_throw _)
    · rw [if_pos full, if_neg full']
      exact .of_cut (narrower.overflow (by omega) paren) call.adds
  · have room : ¬ctx'.maxDepth ≤ m.depth := by
      have higher := narrower.depth
      omega
    rw [if_neg full, if_neg room]
    exact call

theorem construct_shorter (id : ClassId) (arguments : List Value) (paren : Token) :
    Shorter cut (construct ctx id arguments paren) (construct ctx' id arguments paren) := by
  unfold construct
  refine .get_bind fun first => .get_bind fun second => .get_bind fun third => ?_
  refine (Shorter.of_adds (adds_checkArity _ _ paren)).bind fun _ => ?_
  refine (Shorter.of_adds (adds_of_silent fun _ => rfl)).bind fun fresh => ?_
  cases second.initializer? (first.classAt id) with
  | none => exact .of_adds (adds_pure _)
  | some f =>
    cases (first.classAt id).thisSlot with
    | none => exact .of_adds (adds_pure _)
    | some slot =>
      refine (Shorter.of_adds (adds_of_silent fun _ => rfl)).bind fun bound => ?_
      exact (callFunction_shorter narrower bound arguments paren).bind fun _ => .of_adds (adds_pure _)

theorem invoke_shorter (callee : Value) (arguments : List Value) (paren : Token) :
    Shorter cut (invoke ctx callee arguments paren) (invoke ctx' callee arguments paren) := by
  cases callee with
  | function id =>
    refine .get_bind fun m => ?_
    exact (Shorter.of_adds (adds_checkArity _ _ paren)).bind fun _ =>
      callFunction_shorter narrower id arguments paren
  | «class» id => exact construct_shorter narrower id arguments paren
  | _ => exact .of_adds (adds_throw _)

end

end Exec

/-- Tokens and nodes that are the same, with no need to know a hidden variable. -/
def Likeness.same : Likeness where
  token t u := t = u
  named id name other otherName := id = other ∧ name = otherName
  node id other := id = other
  hidden _ _ := False

theorem Likeness.same_reflexive : Likeness.same.Reflexive :=
  ⟨fun _ => rfl, fun _ _ => ⟨rfl, rfl⟩, fun _ => rfl⟩

theorem Likeness.same_exact : Likeness.same.Exact :=
  ⟨fun _ _ => id, fun _ _ _ _ => id, fun _ _ => id, fun _ _ => False.elim⟩

namespace Guarded

open Exec

variable {cut : Stop → Prop} {ctx ctx' : Context}

theorem parallel_shorter (narrower : Narrower cut ctx ctx') :
    Parallel .same frank frank ctx ctx' (Shorter cut) where
  pure a := .of_adds (adds_pure a)
  bind := .bind
  capture := .of_adds (adds_of_silent fun _ => rfl)
  within chain _ _ inner := inner.within chain
  repeatWhile tests runs := tests.repeatWhile runs narrower.rounds narrower.patience
  kind same := congrArg Token.kind same
  lexeme same := congrArg Token.lexeme same
  ofOperator same result := by
    cases same
    exact .of_adds (adds_ofOperator _ result)
  lookUp names := by
    obtain ⟨rfl, rfl⟩ := names
    have same : Exec.lookUp ctx = Exec.lookUp ctx' := by
      unfold Exec.lookUp
      rw [narrower.bindings]
    rw [lookUp_frank, lookUp_frank, same]
    exact .of_adds (adds_lookUp ctx' _ _)
  store names value := by
    obtain ⟨rfl, rfl⟩ := names
    have same : Exec.store ctx = Exec.store ctx' := by
      unfold Exec.store
      rw [narrower.bindings]
    rw [store_frank, store_frank, same]
    exact .of_adds (adds_store ctx' _ _ value)
  declare names value := by
    obtain ⟨rfl, rfl⟩ := names
    have same : Exec.declare ctx = Exec.declare ctx' := by
      unfold Exec.declare
      rw [narrower.bindings]
    rw [same]
    exact .of_adds (adds_declare ctx' _ _ value)
  lookUpHidden impossible := impossible.elim
  declareHidden impossible := impossible.elim
  invoke same callee arguments := by
    cases same
    exact invoke_shorter narrower callee arguments _
  close decls := by
    cases decls.eq Likeness.same_exact
    exact .of_adds (adds_of_silent fun _ => rfl)
  getProperty same object := by
    cases same
    exact .of_adds (adds_getProperty object _)
  receiver same object := by
    cases same
    exact .of_adds (adds_receiver object _)
  setField _ _ _ := .of_adds (adds_of_silent fun _ => rfl)
  print value := .of_adds (adds_print value)
  addMethods closure members _ _ decls := by
    cases decls.eq Likeness.same_exact
    exact .of_adds (adds_addMethods closure members _)
  addClass same nodes members := by
    cases same
    cases nodes
    rw [narrower.bindings]
    exact .of_adds (adds_of_silent fun _ => rfl)

theorem body_shorter (narrower : Narrower cut ctx ctx') (object : FunctionObject)
    (arguments : List Value) :
    Shorter cut (body frank ctx object arguments) (body frank ctx' object arguments) := by
  refine (parallel_shorter narrower).body Shorter.deeper ?_ (.refl Likeness.same_reflexive _)
    rfl rfl arguments
  intro params params' parameters arguments
  cases Likeness.same_exact.params parameters
  rw [narrower.bindings]
  exact .of_adds (adds_of_silent fun _ => rfl)

theorem adds_call (bindings : Bindings) (limit bound : Nat) (id : FunctionId)
    (arguments : List Value) : Adds (call frank bindings limit bound id arguments) := by
  induction bound generalizing id arguments with
  | zero => exact adds_throw _
  | succ bound ih =>
    have same : Narrower (fun _ => False) (context frank bindings limit bound)
        (context frank bindings limit bound) :=
      ⟨rfl, Nat.le_refl _, fun less => absurd less (Nat.lt_irrefl _), Nat.le_refl _,
        fun less => absurd less (Nat.lt_irrefl _), fun id arguments => .of_adds (ih id arguments)⟩
    intro m
    exact (body_shorter same (m.functionAt id) arguments).adds m

/-- Calls with less room go like calls with more, by induction on the bound of those with less. -/
theorem call_shorter (bindings : Bindings) {limit limit' : Nat} (lower : limit ≤ limit')
    (overflow : limit < limit' → ∀ token, cut (.error (.faulted .tooDeep token)))
    {bound bound' : Nat} (fewer : bound ≤ bound') (patience : bound < bound' → cut .exhausted)
    (id : FunctionId) (arguments : List Value) :
    Shorter cut (call frank bindings limit bound id arguments)
      (call frank bindings limit' bound' id arguments) := by
  induction bound generalizing bound' id arguments with
  | zero =>
    have adds := adds_call bindings limit' bound' id arguments
    cases bound' with
    | zero => exact .of_adds adds
    | succ more => exact .of_cut (patience (Nat.succ_pos more)) adds
  | succ bound ih =>
    obtain ⟨more, rfl⟩ : ∃ more, bound' = more + 1 := ⟨bound' - 1, by omega⟩
    have less : bound ≤ more := by omega
    have still (less : bound < more) : cut .exhausted := patience (by omega)
    have narrower : Narrower cut (context frank bindings limit bound)
        (context frank bindings limit' more) :=
      ⟨rfl, lower, overflow, less, still, ih less still⟩
    exact .get_bind fun m => body_shorter narrower (m.functionAt id) arguments

end Guarded

namespace Exec

/-- A program with less room goes like one with more, as far as it is not cut short. -/
theorem stmts_shorter {cut : Stop → Prop} (bindings : Bindings) {limit limit' : Nat}
    (lower : limit ≤ limit')
    (overflow : limit < limit' → ∀ token, cut (.error (.faulted .tooDeep token)))
    {bound bound' : Nat} (fewer : bound ≤ bound') (patience : bound < bound' → cut .exhausted)
    (program : List Stmt) :
    Shorter cut (stmts (context bindings limit bound) program)
      (stmts (context bindings limit' bound') program) := by
  have narrower : Narrower cut (Guarded.context Guarded.frank bindings limit bound)
      (Guarded.context Guarded.frank bindings limit' bound') :=
    ⟨rfl, lower, overflow, fewer, patience,
      Guarded.call_shorter bindings lower overflow fewer patience⟩
  have runs := (Guarded.parallel_shorter narrower).stmts (.refl Likeness.same_reflexive program)
  rw [Guarded.stmts_frank, Guarded.stmts_frank, Guarded.context_frank,
    Guarded.context_frank] at runs
  exact runs

end Exec
end Lox
