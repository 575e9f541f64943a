import Lox.Proofs.Return.Returns
import Lox.Proofs.Session.Load

set_option autoImplicit false

/-! A strict interpreter. It runs functions and programs like the interpreter, and stops with an alarm of its
own where a value that was returned would get lost: after the body of an initializer, unless the value
is `nil`, and after a statement of a program that ended by a `return`. If both always end alike, whatever
the alarm is, then no value gets lost. -/

namespace Lox

namespace Exec

/-- Runs statements one after the other and takes no notice of how each of them ends. -/
def each (ctx : Context) : List Stmt → Exec Unit
  | [] => return ()
  | s :: rest => do
    let _ ← stmt ctx s
    each ctx rest

/-- Flushes the output at the end of a run. A failure to flush takes the place of its error. -/
def closing {α : Type} (run : Exec α) : Exec Unit := fun m =>
  match run m with
  | .ok _ m => flush m
  | .error .exhausted m => .error .exhausted m
  | .error (.error e) m =>
    match flush m with
    | .ok _ m => .error (.error e) m
    | .error stop m => .error stop m

theorem program_eq (ctx : Context) (ss : List Stmt) : program ctx ss = closing (stmts ctx ss) := by
  funext m
  unfold program closing
  cases stmts ctx ss m with
  | ok flow last => rfl
  | error stop last => cases stop <;> rfl

end Exec

namespace Strict

open Exec

/-- What is sounded for a value that gets lost. -/
abbrev Alarm := Value → Stop

variable (alarm : Alarm)

/-- Lets a body end unless the value that it returned would be replaced by another one. -/
def heed (object : FunctionObject) : Flow → Exec Flow
  | .normal => return .normal
  | .returned .nil => return .returned .nil
  | .returned value => if object.isInitializer then throw (alarm value) else return .returned value

def body (ctx : Context) (object : FunctionObject) (arguments : List Value) : Exec Value := do
  let flow ← deeper <| within object.closure do
    modify fun m =>
      { m with environment := bindParams ctx.bindings m.environment object.decl.params arguments }
    stmts ctx object.decl.body
  match object.isInitializer, object.receiver, ← heed alarm object flow with
  | true, some receiver, _ => return .instance receiver
  | _, _, .returned value => return value
  | _, _, .normal => return .nil

def call (bindings : Bindings) (maxDepth : Nat) : Nat → FunctionId → List Value → Exec Value
  | 0, _, _ => throw .exhausted
  | bound + 1, id, arguments => do
    let object := (← get).functionAt id
    body alarm ⟨bindings, maxDepth, bound, call bindings maxDepth bound⟩ object arguments

def context (bindings : Bindings) (maxDepth bound : Nat) : Context :=
  ⟨bindings, maxDepth, bound, call alarm bindings maxDepth bound⟩

/-- Runs statements one after the other, none of which may return. -/
def statements (ctx : Context) : List Stmt → Exec Unit
  | [] => return ()
  | s :: rest => do
    match ← stmt ctx s with
    | .normal => statements ctx rest
    | .returned value => throw (alarm value)

def execute (bound : Nat) (program : List Stmt) : Stage Unit := fun s =>
  let context := Strict.context alarm s.bindings s.config.maxCallDepth bound
  match closing (statements alarm context program) s.machine with
  | .ok _ machine => .ok () { s with machine }
  | .error (.error e) machine => Stage.report [e.diagnostic] { s with machine }
  | .error .exhausted machine => .error .exhausted { s with machine }

def run (bound : Nat) (source : String) : Stage Unit :=
  Stage.load source >>= Stage.finish (execute alarm bound)

end Strict

/-! ## Agreement

On a machine whose initializers return nothing, both interpreters take the same steps and leave such a
machine: by induction on the code, and on the bound for the functions that it calls. -/

/-- An initializer, here or further inside, returns nothing but itself. -/
structure FunctionDecl.Heeds (decl : FunctionDecl) : Prop where
  modest : decl.IsModest
  inner : Functions.function FunctionDecl.IsPlain FunctionDecl.IsModest decl

theorem FunctionDecl.IsPlain.isModest {decl : FunctionDecl} (plain : decl.IsPlain) : decl.IsModest := by
  intro initializer
  rw [plain] at initializer
  cases initializer

/-- None of the functions of a machine returns what would get lost. -/
def Machine.Modest (m : Machine) : Prop :=
  ∀ object ∈ m.functions, object.decl.Heeds

namespace Machine.Modest

variable {m after : Machine}

theorem new (output : Sink) : (Machine.new output).Modest :=
  fun _ member => absurd member (Array.not_mem_empty _)

theorem of_functions (modest : m.Modest) (same : after.functions = m.functions) : after.Modest := by
  intro object member
  rw [same] at member
  exact modest object member

theorem functionAt (modest : m.Modest) (id : FunctionId) : (m.functionAt id).decl.Heeds := by
  unfold Machine.functionAt
  rw [Array.getD_eq_getD_getElem?]
  cases found : m.functions[id]? with
  | none => exact ⟨nofun, trivial⟩
  | some object => exact modest object (Array.mem_of_getElem? found)

theorem addFunction (modest : m.Modest) {object : FunctionObject} (heeds : object.decl.Heeds) :
    (m.addFunction object).2.Modest := by
  intro other member
  rcases Array.mem_push.mp member with old | new
  · exact modest other old
  · exact new ▸ heeds

theorem bindFunction (modest : m.Modest) (id : FunctionId) (receiver : InstanceId) (slot : Slot) :
    (m.bindFunction id receiver slot).2.Modest :=
  addFunction modest (modest.functionAt id)

theorem getProperty (modest : m.Modest) (id : InstanceId) (name : String) :
    (m.getProperty id name).2.Modest := by
  unfold Machine.getProperty
  dsimp only
  split
  · exact modest
  · split
    · exact modest.bindFunction _ id _
    · exact modest

end Machine.Modest

namespace Strict

open Exec

variable {α β : Type}

/-- Two computations that do the same on a machine none of whose functions returns what would get lost,
and leave such a machine. -/
structure Alike (strict plain : Exec α) : Prop where
  same : ∀ m : Machine, m.Modest → strict m = plain m
  modest : ∀ m : Machine, m.Modest → (Outcome.state (plain m)).Modest

namespace Alike

variable {strict plain : Exec α}

theorem of_functions {x : Exec α} (functions : ∀ m, (Outcome.state (x m)).functions = m.functions) :
    Alike x x :=
  ⟨fun _ _ => rfl, fun m modest => modest.of_functions (functions m)⟩

theorem pure (a : α) : Alike (return a) (return a) :=
  of_functions fun _ => rfl

theorem throw (stop : Stop) : Alike (throw stop : Exec α) (throw stop) :=
  of_functions fun _ => rfl

theorem bind_of {first second : α → Exec β} (one : Alike strict plain)
    (two : ∀ a, (∃ m after, plain m = .ok a after) → Alike (first a) (second a)) :
    Alike (strict >>= first) (plain >>= second) := by
  constructor
  · intro m modest
    refine Outcome.bind_congr_both (one.same m modest) fun a middle done => ?_
    have still := one.modest m modest
    rw [done] at still
    exact (two a ⟨m, middle, done⟩).same middle still
  · intro m modest
    have still := one.modest m modest
    cases done : plain m with
    | ok a middle =>
        rw [done] at still
        rw [Outcome.bind_of_ok done]
        exact (two a ⟨m, middle, done⟩).modest middle still
    | error stop middle =>
        rw [done] at still
        rw [Outcome.bind_of_error done]
        exact still

theorem bind {first second : α → Exec β} (one : Alike strict plain)
    (two : ∀ a, Alike (first a) (second a)) : Alike (strict >>= first) (plain >>= second) :=
  one.bind_of fun a _ => two a

theorem get_bind {first second : Machine → Exec α}
    (rest : ∀ m : Machine, m.Modest → Alike (first m) (second m)) :
    Alike (get >>= first) (get >>= second) :=
  ⟨fun m modest => (rest m modest).same m modest, fun m modest => (rest m modest).modest m modest⟩

theorem modifyGet {change : Machine → α × Machine}
    (keeps : ∀ m : Machine, m.Modest → (change m).2.Modest) :
    Alike (modifyGet change) (modifyGet change) :=
  ⟨fun _ _ => rfl, keeps⟩

theorem within (inner : Alike strict plain) (chain : Chain) :
    Alike (within chain strict) (within chain plain) := by
  constructor
  · intro m modest
    have same := inner.same { m with environment := m.environment.graft chain } modest
    unfold Exec.within
    dsimp only
    rw [same]
  · intro m modest
    have still := inner.modest { m with environment := m.environment.graft chain } modest
    unfold Exec.within
    dsimp only
    cases done : plain _ with
    | ok a last =>
        rw [done] at still
        exact still
    | error stop last =>
        rw [done] at still
        exact still

theorem deeper (inner : Alike strict plain) : Alike (deeper strict) (deeper plain) := by
  constructor
  · intro m modest
    have same := inner.same { m with depth := m.depth + 1 } modest
    unfold Exec.deeper
    rw [same]
  · intro m modest
    have still := inner.modest { m with depth := m.depth + 1 } modest
    unfold Exec.deeper
    cases done : plain _ with
    | ok a last =>
        rw [done] at still
        exact still
    | error stop last =>
        rw [done] at still
        exact still

theorem map {f : α → β} (inner : Alike strict plain) : Alike (f <$> strict) (f <$> plain) := by
  rw [map_eq_pure_bind, map_eq_pure_bind]
  exact inner.bind fun a => pure (f a)

theorem repeatWhile {test test' : Exec Bool} {round round' : Exec Flow} (tests : Alike test test')
    (runs : Alike round round') :
    ∀ rounds : Nat, Alike (repeatWhile test round rounds) (repeatWhile test' round' rounds) := by
  intro rounds
  induction rounds with
  | zero => exact throw .exhausted
  | succ rounds ih =>
      rw [repeatWhile_succ, repeatWhile_succ]
      refine tests.bind fun holds => ?_
      cases holds with
      | false => exact pure _
      | true =>
          refine runs.bind fun flow => ?_
          cases flow with
          | normal => exact ih
          | returned value => exact pure _

end Alike

/-! ### Operations -/

theorem ofOperator_alike (token : Token) (result : Except RuntimeFault Value) :
    Alike (ofOperator token result) (ofOperator token result) := by
  cases result with
  | ok value => exact .pure value
  | error fault => exact .throw _

theorem receiver_alike (object : Value) (name : Token) :
    Alike (receiver object name) (receiver object name) := by
  cases object with
  | «instance» id => exact .pure id
  | _ => exact .throw _

theorem checkArity_alike (expected found : Nat) (paren : Token) :
    Alike (checkArity expected found paren) (checkArity expected found paren) := by
  unfold checkArity
  split
  · exact .pure ()
  · exact .throw _

theorem print_alike (value : Value) : Alike (print value) (print value) := by
  refine .of_functions fun m => ?_
  change (Outcome.state (write (m.text value ++ "\n") m)).functions = m.functions
  unfold write
  cases m.output.failure? (m.text value ++ "\n") <;> rfl

theorem declare_alike (ctx : Context) (id : NodeId) (name : Token) (value : Value) :
    Alike (declare ctx id name value) (declare ctx id name value) := by
  refine .of_functions fun m => ?_
  unfold declare
  cases ctx.bindings.slot? id <;> rfl

theorem lookUp_alike (ctx : Context) (id : NodeId) (name : Token) :
    Alike (lookUp ctx id name) (lookUp ctx id name) := by
  refine .of_functions fun m => ?_
  unfold lookUp
  dsimp only
  split <;> rfl

theorem store_alike (ctx : Context) (id : NodeId) (name : Token) (value : Value) :
    Alike (store ctx id name value) (store ctx id name value) := by
  refine .of_functions fun m => ?_
  unfold store
  cases ctx.bindings.slot? id with
  | some slot =>
      dsimp only
      split <;> rfl
  | none =>
      dsimp only
      split <;> rfl

theorem getProperty_alike (object : Value) (name : Token) :
    Alike (getProperty object name) (getProperty object name) := by
  cases object with
  | «instance» id =>
      refine ⟨fun _ _ => rfl, fun m modest => ?_⟩
      have still := modest.getProperty id name.lexeme
      unfold Exec.getProperty
      cases found : m.getProperty id name.lexeme with
      | mk value after =>
          rw [found] at still
          simp only [found]
          cases value <;> exact still
  | _ => exact .throw _

theorem close_alike {decl : FunctionDecl} (heeds : decl.Heeds) : Alike (close decl) (close decl) :=
  ⟨fun _ _ => rfl, fun _ modest => modest.addFunction heeds⟩

theorem addMethods_alike (closure : Chain) (members : Table String Value) {decls : List FunctionDecl}
    (heed : Functions.methods FunctionDecl.IsPlain FunctionDecl.IsModest decls) :
    Alike (addMethods closure members decls) (addMethods closure members decls) := by
  induction decls generalizing members with
  | nil => exact .pure members
  | cons method rest ih =>
      obtain ⟨⟨modest, inner⟩, others⟩ := heed
      unfold addMethods
      cases method.name with
      | none => exact ih members others
      | some name =>
          refine .bind (.modifyGet fun m still => still.addFunction ⟨modest, inner⟩) fun id => ?_
          exact ih _ others

/-! ### Code -/

/-- A body ends as it is allowed to: only an initializer has its value replaced, and that is `nil`. -/
theorem heed_of_returns (alarm : Alarm) {object : FunctionObject} (modest : object.decl.IsModest)
    {run : Exec Flow} (returns : ReturnsFrom (Stmt.returnsOf object.decl.body) run) {m after : Machine}
    {flow : Flow} (ran : run m = .ok flow after) : heed alarm object flow = return flow := by
  cases flow with
  | normal => rfl
  | returned v =>
      obtain ⟨value, among, bare⟩ := returns m v after ran
      cases isInitializer : object.isInitializer with
      | true =>
          rw [bare (modest (eq_of_beq isInitializer) value among)]
          rfl
      | false => cases v <;> simp [heed, isInitializer]

section

variable {ctx : Context} {other : FunctionId → List Value → Exec Value}
  (calls : ∀ id arguments, Alike (other id arguments) (ctx.call id arguments))
include calls

set_option linter.unusedSectionVars false

theorem callFunction_alike (id : FunctionId) (arguments : List Value) (paren : Token) :
    Alike (callFunction { ctx with call := other } id arguments paren)
      (callFunction ctx id arguments paren) := by
  refine .get_bind fun m _ => ?_
  dsimp only
  split
  · exact .throw _
  · exact calls id arguments

theorem construct_alike (id : ClassId) (arguments : List Value) (paren : Token) :
    Alike (construct { ctx with call := other } id arguments paren)
      (construct ctx id arguments paren) := by
  refine .get_bind fun m _ => .get_bind fun _ _ => .get_bind fun _ _ => ?_
  refine (checkArity_alike _ _ paren).bind fun _ => ?_
  refine .bind (.modifyGet fun m modest => modest) fun fresh => ?_
  split
  · refine .bind (.modifyGet fun m modest => modest.bindFunction _ fresh _) fun bound => ?_
    exact (callFunction_alike calls bound arguments paren).bind fun _ => .pure _
  · exact .pure _

theorem invoke_alike (callee : Value) (arguments : List Value) (paren : Token) :
    Alike (invoke { ctx with call := other } callee arguments paren)
      (invoke ctx callee arguments paren) := by
  cases callee with
  | function id =>
      refine .get_bind fun m _ => (checkArity_alike _ _ paren).bind fun _ => ?_
      exact callFunction_alike calls id arguments paren
  | «class» id => exact construct_alike calls id arguments paren
  | _ => exact .throw _

mutual

theorem expr_alike : ∀ e : Expr, Functions.expr FunctionDecl.IsPlain FunctionDecl.IsModest e →
    Alike (expr { ctx with call := other } e) (expr ctx e)
  | .literal _, _ => .pure _
  | .unary operator right, all =>
      (expr_alike right all).bind fun _ => ofOperator_alike operator _
  | .binary left operator right, all =>
      (expr_alike left all.1).bind fun _ =>
        (expr_alike right all.2).bind fun _ => ofOperator_alike operator _
  | .logical left _ right, all => by
      refine (expr_alike left all.1).bind fun value => ?_
      split
      · exact .pure value
      · exact expr_alike right all.2
  | .ternary condition thenBranch elseBranch, all => by
      refine (expr_alike condition all.1).bind fun value => ?_
      split
      · exact expr_alike thenBranch all.2.1
      · exact expr_alike elseBranch all.2.2
  | .grouping inner, all => expr_alike inner all
  | .variable id name, _ => lookUp_alike ctx id name
  | .assign id name value, all =>
      (expr_alike value all).bind fun value =>
        (store_alike ctx id name value).bind fun _ => .pure value
  | .call callee paren arguments, all =>
      (expr_alike callee all.1).bind fun callee =>
        (exprs_alike arguments all.2).bind fun arguments =>
          invoke_alike calls callee arguments paren
  | .function _, all => close_alike ⟨all.1.isModest, all.2⟩
  | .get object name, all => (expr_alike object all).bind fun object => getProperty_alike object name
  | .set object name value, all =>
      (expr_alike object all.1).bind fun object =>
        (receiver_alike object name).bind fun id =>
          (expr_alike value all.2).bind fun value =>
            .bind (.of_functions fun _ => rfl) fun _ => .pure value
  | .this id keyword, _ => lookUp_alike ctx id keyword

theorem exprs_alike : ∀ es : List Expr, Functions.exprs FunctionDecl.IsPlain FunctionDecl.IsModest es →
    Alike (exprs { ctx with call := other } es) (exprs ctx es)
  | [], _ => .pure []
  | e :: rest, all =>
      (expr_alike e all.1).bind fun value =>
        (exprs_alike rest all.2).bind fun values => .pure (value :: values)

theorem stmt_alike : ∀ s : Stmt, Functions.stmt FunctionDecl.IsPlain FunctionDecl.IsModest s →
    Alike (stmt { ctx with call := other } s) (stmt ctx s)
  | .expression value, all => (expr_alike value all).bind fun _ => .pure _
  | .print value, all =>
      (expr_alike value all).bind fun value => (print_alike value).bind fun _ => .pure _
  | .var id name none, _ => (declare_alike ctx id name .nil).bind fun _ => .pure _
  | .var id name (some initial), all =>
      (expr_alike initial all).bind fun value =>
        (declare_alike ctx id name value).bind fun _ => .pure _
  | .block body, all =>
      .bind (.of_functions fun _ => rfl) fun chain => (stmts_alike body all).within chain
  | .branch condition thenBranch none, all => by
      refine (expr_alike condition all.1).bind fun value => ?_
      split
      · exact stmt_alike thenBranch all.2
      · exact .pure _
  | .branch condition thenBranch (some elseBranch), all => by
      refine (expr_alike condition all.1).bind fun value => ?_
      split
      · exact stmt_alike thenBranch all.2.1
      · exact stmt_alike elseBranch all.2.2
  | .loop condition body, all =>
      .repeatWhile (expr_alike condition all.1).map (stmt_alike body all.2) ctx.rounds
  | .function id name _, all =>
      (close_alike ⟨all.1.isModest, all.2⟩).bind fun value =>
        (declare_alike ctx id name value).bind fun _ => .pure _
  | .ret _ none, _ => .pure _
  | .ret _ (some value), all => (expr_alike value all).bind fun _ => .pure _
  | .class id name _ fieldDecls _, all =>
      (declare_alike ctx id name .nil).bind fun _ =>
        (fields_alike fieldDecls Table.empty all.1).bind fun members =>
          .bind (.of_functions fun _ => rfl) fun closure =>
            (addMethods_alike closure members all.2).bind fun _ =>
              .bind (.modifyGet fun _ modest => modest) fun _ =>
                (store_alike ctx id name _).bind fun _ => .pure _

theorem stmts_alike : ∀ ss : List Stmt, Functions.stmts FunctionDecl.IsPlain FunctionDecl.IsModest ss →
    Alike (stmts { ctx with call := other } ss) (stmts ctx ss)
  | [], _ => .pure _
  | s :: rest, all => by
      refine (stmt_alike s all.1).bind fun flow => ?_
      cases flow with
      | normal => exact stmts_alike rest all.2
      | returned value => exact .pure _

theorem fields_alike : ∀ (decls : List FieldDecl) (members : Table String Value),
    Functions.fields FunctionDecl.IsPlain FunctionDecl.IsModest decls →
      Alike (fields { ctx with call := other } members decls) (fields ctx members decls)
  | [], members, _ => .pure members
  | .mk _ none :: rest, _, all => fields_alike rest _ all
  | .mk _ (some initial) :: rest, _, all =>
      (expr_alike initial all.1).bind fun _ => fields_alike rest _ all.2

end

theorem body_alike (alarm : Alarm) {object : FunctionObject} (heeds : object.decl.Heeds)
    (arguments : List Value) :
    Alike (body alarm { ctx with call := other } object arguments)
      (Exec.body ctx object arguments) := by
  obtain ⟨⟨name, kind, params, statements⟩, closure, receiver⟩ := object
  refine .bind_of (.deeper (.within (.bind ?_ fun _ => ?_) closure)) fun flow ⟨m, after, ran⟩ => ?_
  · exact .of_functions fun _ => rfl
  · exact stmts_alike calls statements heeds.inner
  · have passes := heed_of_returns alarm heeds.modest
      (.deeper (.within (.bind fun _ => stmts_returns ctx statements) closure)) ran
    rw [passes, pure_bind]
    generalize FunctionObject.isInitializer _ = isInitializer
    cases isInitializer <;> cases receiver <;> cases flow <;> exact .pure _

end

theorem call_alike (alarm : Alarm) (bindings : Bindings) (maxDepth bound : Nat) (id : FunctionId)
    (arguments : List Value) :
    Alike (call alarm bindings maxDepth bound id arguments)
      (Exec.call bindings maxDepth bound id arguments) := by
  induction bound generalizing id arguments with
  | zero => exact .throw _
  | succ bound ih =>
      have calls : ∀ id arguments, Alike (call alarm bindings maxDepth bound id arguments)
          ((Exec.context bindings maxDepth bound).call id arguments) := ih
      exact .get_bind fun m modest => body_alike calls alarm (modest.functionAt id) arguments

/-! ### Programs -/

/-- Statements none of which returns are all run, one after the other. -/
theorem stmts_eq_each (ctx : Context) : ∀ {ss : List Stmt},
    (∀ s ∈ ss, ∀ m v after, stmt ctx s m ≠ .ok (.returned v) after) →
      stmts ctx ss = (do each ctx ss; return .normal)
  | [], _ => rfl
  | s :: rest, goOn => by
      have later := stmts_eq_each ctx fun s member => goOn s (List.mem_cons_of_mem _ member)
      funext m
      unfold stmts each
      rw [bind_assoc]
      refine Outcome.bind_congr_both rfl fun flow middle ran => ?_
      cases flow with
      | normal => exact congrFun later middle
      | returned v => exact absurd ran (goOn s List.mem_cons_self m v middle)

theorem statements_alike (alarm : Alarm) {ctx : Context} {other : FunctionId → List Value → Exec Value}
    (calls : ∀ id arguments, Alike (other id arguments) (ctx.call id arguments)) :
    ∀ {ss : List Stmt}, Functions.stmts FunctionDecl.IsPlain FunctionDecl.IsModest ss →
      (∀ s ∈ ss, ∀ m v after, stmt ctx s m ≠ .ok (.returned v) after) →
        Alike (statements alarm { ctx with call := other } ss) (each ctx ss)
  | [], _, _ => .pure ()
  | s :: rest, all, goOn => by
      refine (stmt_alike calls s all.1).bind_of fun flow ⟨m, after, ran⟩ => ?_
      cases flow with
      | normal =>
          exact statements_alike alarm calls all.2 fun s member =>
            goOn s (List.mem_cons_of_mem _ member)
      | returned v => exact absurd ran (goOn s List.mem_cons_self m v after)

theorem Alike.closing {strict plain : Exec α} (inner : Alike strict plain) :
    Alike (closing strict) (closing plain) := by
  have flushed (m : Machine) (modest : m.Modest) : (Outcome.state (flush m)).Modest := by
    unfold flush
    cases m.output.flushFailure? <;> exact modest
  constructor
  · intro m modest
    unfold Exec.closing
    rw [inner.same m modest]
  · intro m modest
    have still := inner.modest m modest
    unfold Exec.closing
    cases done : plain m with
    | ok a last =>
        rw [done] at still
        exact flushed last still
    | error stop last =>
        rw [done] at still
        have flushes := flushed last still
        cases stop with
        | exhausted => exact still
        | error e =>
            dsimp only
            cases closes : flush last <;> rw [closes] at flushes <;> exact flushes

theorem closing_discard (run : Exec Unit) (flow : Flow) :
    Exec.closing (do run; return flow) = Exec.closing run := by
  funext m
  unfold Exec.closing
  cases done : run m with
  | ok a last => rw [Outcome.bind_of_ok done]; rfl
  | error stop last => rw [Outcome.bind_of_error done]; cases stop <;> rfl

/-- A program that is accepted and in which only methods are initializers is run alike. -/
theorem program_alike (alarm : Alarm) {accepting : Bindings} {program : List Stmt}
    (accepted : (resolve accepting program).1 = none)
    (plain : Functions.stmts FunctionDecl.IsPlain (fun _ => True) program) (bindings : Bindings)
    (maxDepth bound : Nat) :
    Alike (Exec.closing (statements alarm (context alarm bindings maxDepth bound) program))
      (Exec.program (Exec.context bindings maxDepth bound) program) := by
  have goOn (s : Stmt) (member : s ∈ program) :=
    stmt_goes_on accepted member (Exec.context bindings maxDepth bound)
  have calls : ∀ id arguments, Alike (call alarm bindings maxDepth bound id arguments)
      ((Exec.context bindings maxDepth bound).call id arguments) :=
    call_alike alarm bindings maxDepth bound
  rw [program_eq, stmts_eq_each _ goOn, closing_discard]
  exact (statements_alike alarm calls (modest_of_accepted accepted plain) goOn).closing

end Strict
end Lox
