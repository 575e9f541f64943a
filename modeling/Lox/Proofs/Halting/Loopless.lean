import Lox.Proofs.Machine.Cells
import Lox.Proofs.Outcome
import Lox.Machine.Evaluate

set_option autoImplicit false

/-! Code without loops on a machine without loops. It comes to an end as soon as its context allows for as
many calls as may still be opened: every body is entered through a counted call, and between two calls
there is only the tree to walk. By induction on the code, and on the bound for the functions that it
calls. -/

namespace Lox

namespace Loopless

mutual

/-- There is no loop in an expression, not even in the functions that it makes. -/
def expr : Expr → Bool
  | .literal _ => true
  | .unary _ right => expr right
  | .binary left _ right => expr left && expr right
  | .logical left _ right => expr left && expr right
  | .ternary condition thenBranch elseBranch =>
    expr condition && (expr thenBranch && expr elseBranch)
  | .grouping inner => expr inner
  | .variable _ _ => true
  | .assign _ _ value => expr value
  | .call callee _ arguments => expr callee && exprs arguments
  | .function decl => function decl
  | .get object _ => expr object
  | .set object _ value => expr object && expr value
  | .this _ _ => true

def exprs : List Expr → Bool
  | [] => true
  | e :: rest => expr e && exprs rest

def stmt : Stmt → Bool
  | .expression value => expr value
  | .print value => expr value
  | .var _ _ none => true
  | .var _ _ (some initial) => expr initial
  | .block body => stmts body
  | .branch condition thenBranch none => expr condition && stmt thenBranch
  | .branch condition thenBranch (some elseBranch) =>
    expr condition && (stmt thenBranch && stmt elseBranch)
  | .loop _ _ => false
  | .function _ _ decl => function decl
  | .ret _ none => true
  | .ret _ (some value) => expr value
  | .class _ _ _ fieldDecls methodDecls => fields fieldDecls && functions methodDecls

def stmts : List Stmt → Bool
  | [] => true
  | s :: rest => stmt s && stmts rest

def function : FunctionDecl → Bool
  | .mk _ _ _ body => stmts body

def functions : List FunctionDecl → Bool
  | [] => true
  | decl :: rest => function decl && functions rest

def fields : List FieldDecl → Bool
  | [] => true
  | .mk _ none :: rest => fields rest
  | .mk _ (some value) :: rest => expr value && fields rest

end

theorem body_of_function {decl : FunctionDecl} (loopless : function decl = true) :
    stmts decl.body = true := by
  cases decl with
  | mk name kind params body => exact loopless

end Loopless

/-- No function of a machine has a loop in its body. -/
def Machine.Loopless (m : Machine) : Prop :=
  ∀ object ∈ m.functions, Loopless.function object.decl = true

namespace Machine

variable {m : Machine}

theorem loopless_new (output : Sink) : (Machine.new output).Loopless :=
  fun _ member => absurd member (Array.not_mem_empty _)

theorem Loopless.functionAt (loopless : m.Loopless) (id : FunctionId) :
    Lox.Loopless.function (m.functionAt id).decl = true := by
  unfold Machine.functionAt
  rw [Array.getD_eq_getD_getElem?]
  cases found : m.functions[id]? with
  | none => rfl
  | some object => exact loopless object (Array.mem_of_getElem? found)

theorem Loopless.addFunction (loopless : m.Loopless) {object : FunctionObject}
    (body : Lox.Loopless.function object.decl = true) : (m.addFunction object).2.Loopless := by
  intro other member
  rcases Array.mem_push.mp member with old | new
  · exact loopless other old
  · exact new ▸ body

theorem Loopless.bindFunction (loopless : m.Loopless) (id : FunctionId) (receiver : InstanceId)
    (slot : Slot) : (m.bindFunction id receiver slot).2.Loopless :=
  Loopless.addFunction loopless (loopless.functionAt id)

/-- A property is read off the instance or bound to it, and the bound method is a known one. -/
theorem Loopless.getProperty (loopless : m.Loopless) (id : InstanceId) (name : String) :
    (m.getProperty id name).2.Loopless ∧ (m.getProperty id name).2.depth = m.depth := by
  unfold Machine.getProperty
  dsimp only
  split
  · exact ⟨loopless, rfl⟩
  · split
    · exact ⟨loopless.bindFunction _ id _, rfl⟩
    · exact ⟨loopless, rfl⟩

end Machine

namespace Exec

variable {α β : Type}

/-- An outcome that is one of the program, on a machine without loops and as deep as before. -/
structure Settled (m : Machine) (result : EStateM.Result Stop Machine α) : Prop where
  loopless : (Outcome.state result).Loopless
  depth : (Outcome.state result).depth = m.depth
  ended : ∀ last, result ≠ .error .exhausted last

/-- From every machine without loops on which at most so many calls may still be opened, a computation
comes to an end. -/
def Settles (limit room : Nat) (x : Exec α) : Prop :=
  ∀ m : Machine, m.Loopless → limit ≤ m.depth + room → Settled m (x m)

section

variable {m last : Machine}

/-- Ends of a computation that leaves functions and depth alone. -/
theorem settled_ok (loopless : m.Loopless) (a : α) (functions : last.functions = m.functions)
    (depth : last.depth = m.depth) : Settled m (.ok a last) := by
  refine ⟨fun object member => loopless object ?_, depth, nofun⟩
  rw [← functions]
  exact member

theorem settled_error (loopless : m.Loopless) (e : RuntimeError)
    (functions : last.functions = m.functions) (depth : last.depth = m.depth) :
    Settled m (.error (.error e) last : EStateM.Result Stop Machine α) := by
  refine ⟨fun object member => loopless object ?_, depth, nofun⟩
  rw [← functions]
  exact member

end

variable {limit room : Nat}

namespace Settles

theorem pure (a : α) : Settles limit room (return a) :=
  fun _ loopless _ => settled_ok loopless a rfl rfl

theorem fail (fault : RuntimeFault) (token : Token) :
    Settles limit room (fail fault token : Exec α) :=
  fun _ loopless _ => settled_error loopless _ rfl rfl

theorem bind {x : Exec α} {f : α → Exec β} (first : Settles limit room x)
    (later : ∀ a, Settles limit room (f a)) : Settles limit room (x >>= f) := by
  intro m loopless shallow
  have settled := first m loopless shallow
  cases result : x m with
  | ok a middle =>
    rw [result] at settled
    have depth : middle.depth = m.depth := settled.depth
    have rest := later a middle settled.loopless (depth.symm ▸ shallow)
    rw [Outcome.bind_of_ok result]
    exact ⟨rest.loopless, rest.depth.trans depth, rest.ended⟩
  | error stop middle =>
    rw [result] at settled
    rw [Outcome.bind_of_error result]
    exact ⟨settled.loopless, settled.depth,
      fun last same => settled.ended last (by cases same; rfl)⟩

theorem get_bind {f : Machine → Exec α}
    (rest : ∀ m : Machine, m.Loopless → Settles limit room (f m)) :
    Settles limit room (get >>= f) :=
  fun m loopless shallow => rest m loopless m loopless shallow

theorem modifyGet {change : Machine → α × Machine}
    (keeps : ∀ m : Machine, m.Loopless → (change m).2.Loopless)
    (depth : ∀ m, (change m).2.depth = m.depth) : Settles limit room (modifyGet change) :=
  fun m loopless _ => ⟨keeps m loopless, depth m, nofun⟩

theorem within {x : Exec α} (inner : Settles limit room x) (chain : Chain) :
    Settles limit room (within chain x) := by
  intro m loopless shallow
  have settled := inner { m with environment := m.environment.graft chain } loopless shallow
  unfold Exec.within
  dsimp only
  cases result : x _ with
  | ok a last =>
    rw [result] at settled
    exact ⟨settled.loopless, settled.depth, nofun⟩
  | error stop last =>
    rw [result] at settled
    exact ⟨settled.loopless, settled.depth,
      fun last same => settled.ended _ (by cases same; rfl)⟩

/-- Inside a call there is room for one call less. -/
theorem deeper {x : Exec α} (inner : Settles limit room x) :
    Settles limit (room + 1) (deeper x) := by
  intro m loopless shallow
  have settled := inner { m with depth := m.depth + 1 } loopless
    (by dsimp only; omega)
  unfold Exec.deeper
  cases result : x _ with
  | ok a last =>
    rw [result] at settled
    have depth : last.depth = m.depth + 1 := settled.depth
    refine ⟨settled.loopless, ?_, nofun⟩
    exact congrArg (· - 1) depth
  | error stop last =>
    rw [result] at settled
    have depth : last.depth = m.depth + 1 := settled.depth
    refine ⟨settled.loopless, congrArg (· - 1) depth,
      fun last same => settled.ended _ (by cases same; rfl)⟩

end Settles

/-! ### Operations -/

theorem settles_ofOperator (token : Token) (result : Except RuntimeFault Value) :
    Settles limit room (ofOperator token result) := by
  cases result with
  | ok value => exact .pure value
  | error fault => exact .fail fault token

theorem settles_receiver (object : Value) (name : Token) :
    Settles limit room (receiver object name) := by
  cases object with
  | «instance» id => exact .pure id
  | _ => exact .fail _ name

theorem settles_checkArity (expected found : Nat) (paren : Token) :
    Settles limit room (checkArity expected found paren) := by
  unfold checkArity
  split
  · exact .pure ()
  · exact .fail _ paren

theorem settles_capture : Settles limit room capture :=
  fun _ loopless _ => settled_ok loopless _ rfl rfl

theorem settles_print (value : Value) : Settles limit room (print value) := by
  intro m loopless _
  change Settled m (write (m.text value ++ "\n") m)
  unfold write
  cases m.output.failure? (m.text value ++ "\n") with
  | none => exact settled_ok loopless () rfl rfl
  | some failure => exact settled_error loopless _ rfl rfl

theorem settles_declare (ctx : Context) (id : NodeId) (name : Token) (value : Value) :
    Settles limit room (declare ctx id name value) := by
  intro m loopless _
  unfold declare
  cases ctx.bindings.slot? id with
  | some slot => exact settled_ok loopless () rfl rfl
  | none => exact settled_ok loopless () rfl rfl

theorem settles_lookUp (ctx : Context) (id : NodeId) (name : Token) :
    Settles limit room (lookUp ctx id name) := by
  intro m loopless _
  unfold lookUp
  dsimp only
  split
  · exact settled_ok loopless _ rfl rfl
  · exact settled_error loopless _ rfl rfl

theorem settles_store (ctx : Context) (id : NodeId) (name : Token) (value : Value) :
    Settles limit room (store ctx id name value) := by
  intro m loopless _
  unfold store
  cases ctx.bindings.slot? id with
  | some slot =>
    dsimp only
    split
    · exact settled_ok loopless () rfl rfl
    · exact settled_error loopless _ rfl rfl
  | none =>
    dsimp only
    split
    · exact settled_ok loopless () rfl rfl
    · exact settled_error loopless _ rfl rfl

theorem settles_getProperty (object : Value) (name : Token) :
    Settles limit room (getProperty object name) := by
  cases object with
  | «instance» id =>
    intro m loopless _
    obtain ⟨still, depth⟩ := loopless.getProperty id name.lexeme
    unfold getProperty
    cases found : m.getProperty id name.lexeme with
    | mk value after =>
      rw [found] at still depth
      simp only [found]
      cases value with
      | some value => exact ⟨still, depth, nofun⟩
      | none => exact ⟨still, depth, nofun⟩
  | _ => exact .fail _ name

theorem settles_close {decl : FunctionDecl} (body : Loopless.function decl = true) :
    Settles limit room (close decl) :=
  fun _ loopless _ => ⟨loopless.addFunction body, rfl, nofun⟩

theorem settles_addMethods (closure : Chain) (members : Table String Value)
    {decls : List FunctionDecl} (bodies : Loopless.functions decls = true) :
    Settles limit room (addMethods closure members decls) := by
  induction decls generalizing members with
  | nil => exact .pure members
  | cons method rest ih =>
    obtain ⟨head, tail⟩ := Bool.and_eq_true_iff.mp bodies
    unfold addMethods
    cases method.name with
    | none => exact ih members tail
    | some name =>
      refine .bind (.modifyGet (fun m loopless => loopless.addFunction head) fun _ => rfl)
        fun id => ?_
      exact ih _ tail

/-! ### Calls -/

/-- A context whose calls come to an end, wherever there is room for them. -/
structure Enters (limit room : Nat) (ctx : Context) : Prop where
  maxDepth : ctx.maxDepth = limit
  calls : ∀ id arguments (m : Machine), m.Loopless → m.depth < limit → limit ≤ m.depth + room →
    Settled m (ctx.call id arguments m)

section

variable {ctx : Context} (enters : Enters limit room ctx)
include enters

theorem callFunction_settles (id : FunctionId) (arguments : List Value) (paren : Token) :
    Settles limit room (callFunction ctx id arguments paren) := by
  intro m loopless shallow
  change Settled m ((if ctx.maxDepth ≤ m.depth then Exec.fail .tooDeep paren
    else ctx.call id arguments) m)
  rw [enters.maxDepth]
  by_cases full : limit ≤ m.depth
  · rw [if_pos full]
    exact settled_error loopless _ rfl rfl
  · rw [if_neg full]
    exact enters.calls id arguments m loopless (Nat.lt_of_not_le full) shallow

/-- An instance is set up through a call like any other. -/
theorem construct_settles (id : ClassId) (arguments : List Value) (paren : Token) :
    Settles limit room (construct ctx id arguments paren) := by
  unfold construct
  refine .get_bind fun first _ => .get_bind fun second _ => .get_bind fun third _ => ?_
  refine (settles_checkArity _ _ paren).bind fun _ => ?_
  refine .bind (.modifyGet (fun _ loopless => loopless) fun _ => rfl) fun fresh => ?_
  cases second.initializer? (first.classAt id) with
  | none => exact .pure _
  | some f =>
    cases (first.classAt id).thisSlot with
    | none => exact .pure _
    | some slot =>
      refine .bind (.modifyGet (fun m loopless => loopless.bindFunction f fresh slot)
        fun _ => rfl) fun bound => ?_
      exact (callFunction_settles enters bound arguments paren).bind fun _ => .pure _

theorem invoke_settles (callee : Value) (arguments : List Value) (paren : Token) :
    Settles limit room (invoke ctx callee arguments paren) := by
  cases callee with
  | function id =>
    refine .get_bind fun m _ => ?_
    exact (settles_checkArity _ _ paren).bind fun _ =>
      callFunction_settles enters id arguments paren
  | «class» id => exact construct_settles enters id arguments paren
  | _ => exact .fail _ paren

end

/-! ### Code -/

variable {ctx : Context}

mutual

theorem expr_settles (enters : Enters limit room ctx) : ∀ {e : Expr}, Loopless.expr e = true →
    Settles limit room (expr ctx e)
  | .literal value, _ => .pure _
  | .unary operator right, loopless =>
    (expr_settles enters (e := right) loopless).bind fun _ => settles_ofOperator operator _
  | .binary left operator right, loopless => by
    obtain ⟨one, two⟩ := Bool.and_eq_true_iff.mp loopless
    exact (expr_settles enters one).bind fun _ => (expr_settles enters two).bind fun _ =>
      settles_ofOperator operator _
  | .logical left operator right, loopless => by
    obtain ⟨one, two⟩ := Bool.and_eq_true_iff.mp loopless
    refine (expr_settles enters one).bind fun left => ?_
    split
    · exact .pure left
    · exact expr_settles enters two
  | .ternary condition thenBranch elseBranch, loopless => by
    obtain ⟨test, arms⟩ := Bool.and_eq_true_iff.mp loopless
    obtain ⟨one, two⟩ := Bool.and_eq_true_iff.mp arms
    refine (expr_settles enters test).bind fun condition => ?_
    split
    · exact expr_settles enters one
    · exact expr_settles enters two
  | .grouping inner, loopless => expr_settles enters (e := inner) loopless
  | .variable id name, _ => settles_lookUp ctx id name
  | .assign id name value, loopless =>
    (expr_settles enters (e := value) loopless).bind fun value =>
      (settles_store ctx id name value).bind fun _ => .pure value
  | .call callee paren arguments, loopless => by
    obtain ⟨one, two⟩ := Bool.and_eq_true_iff.mp loopless
    exact (expr_settles enters one).bind fun callee =>
      (exprs_settles enters two).bind fun arguments => invoke_settles enters callee arguments paren
  | .function decl, loopless => settles_close loopless
  | .get object name, loopless =>
    (expr_settles enters (e := object) loopless).bind fun object => settles_getProperty object name
  | .set object name value, loopless => by
    obtain ⟨one, two⟩ := Bool.and_eq_true_iff.mp loopless
    refine (expr_settles enters one).bind fun object => ?_
    refine (settles_receiver object name).bind fun id => (expr_settles enters two).bind fun value => ?_
    exact .bind (.modifyGet (fun _ loopless => loopless) fun _ => rfl) fun _ => .pure value
  | .this id keyword, _ => settles_lookUp ctx id keyword

theorem exprs_settles (enters : Enters limit room ctx) : ∀ {es : List Expr},
    Loopless.exprs es = true → Settles limit room (exprs ctx es)
  | [], _ => .pure []
  | e :: rest, loopless => by
    obtain ⟨head, tail⟩ := Bool.and_eq_true_iff.mp loopless
    exact (expr_settles enters head).bind fun _ => (exprs_settles enters tail).bind fun _ => .pure _

theorem stmt_settles (enters : Enters limit room ctx) : ∀ {s : Stmt}, Loopless.stmt s = true →
    Settles limit room (stmt ctx s)
  | .expression value, loopless =>
    (expr_settles enters (e := value) loopless).bind fun _ => .pure _
  | .print value, loopless =>
    (expr_settles enters (e := value) loopless).bind fun value =>
      (settles_print value).bind fun _ => .pure _
  | .var id name none, _ => (settles_declare ctx id name .nil).bind fun _ => .pure _
  | .var id name (some initial), loopless =>
    (expr_settles enters (e := initial) loopless).bind fun value =>
      (settles_declare ctx id name value).bind fun _ => .pure _
  | .block body, loopless =>
    settles_capture.bind fun chain =>
      (stmts_settles enters (show Loopless.stmts body = true from loopless)).within chain
  | .branch condition thenBranch none, loopless => by
    obtain ⟨test, one⟩ := Bool.and_eq_true_iff.mp loopless
    refine (expr_settles enters test).bind fun condition => ?_
    split
    · exact stmt_settles enters one
    · exact .pure _
  | .branch condition thenBranch (some elseBranch), loopless => by
    obtain ⟨test, arms⟩ := Bool.and_eq_true_iff.mp loopless
    obtain ⟨one, two⟩ := Bool.and_eq_true_iff.mp arms
    refine (expr_settles enters test).bind fun condition => ?_
    split
    · exact stmt_settles enters one
    · exact stmt_settles enters two
  | .loop _ _, impossible => nomatch impossible
  | .function id name decl, loopless =>
    (settles_close (show Loopless.function decl = true from loopless)).bind fun value =>
      (settles_declare ctx id name value).bind fun _ => .pure _
  | .ret _ none, _ => .pure _
  | .ret _ (some value), loopless =>
    (expr_settles enters (e := value) loopless).bind fun _ => .pure _
  | .class id name thisId fieldDecls methodDecls, loopless => by
    obtain ⟨first, second⟩ := Bool.and_eq_true_iff.mp loopless
    refine (settles_declare ctx id name .nil).bind fun _ => ?_
    refine (fields_settles enters Table.empty first).bind fun members => ?_
    refine settles_capture.bind fun chain => (settles_addMethods chain members second).bind fun members => ?_
    refine .bind (.modifyGet (fun _ loopless => loopless) fun _ => rfl) fun made => ?_
    exact (settles_store ctx id name _).bind fun _ => .pure _

theorem stmts_settles (enters : Enters limit room ctx) : ∀ {ss : List Stmt},
    Loopless.stmts ss = true → Settles limit room (stmts ctx ss)
  | [], _ => .pure _
  | s :: rest, loopless => by
    obtain ⟨head, tail⟩ := Bool.and_eq_true_iff.mp loopless
    refine (stmt_settles enters head).bind fun flow => ?_
    cases flow with
    | normal => exact stmts_settles enters tail
    | returned value => exact .pure _

theorem fields_settles (enters : Enters limit room ctx) (members : Table String Value) :
    ∀ {decls : List FieldDecl}, Loopless.fields decls = true →
      Settles limit room (fields ctx members decls)
  | [], _ => .pure members
  | .mk name none :: rest, loopless =>
    fields_settles enters (members.insert name.lexeme .nil)
      (show Loopless.fields rest = true from loopless)
  | .mk name (some initial) :: rest, loopless => by
    obtain ⟨head, tail⟩ := Bool.and_eq_true_iff.mp loopless
    exact (expr_settles enters head).bind fun value =>
      fields_settles enters (members.insert name.lexeme value) tail

end

/-- A body is run one call deeper. -/
theorem body_settles (enters : Enters limit room ctx) {object : FunctionObject}
    (arguments : List Value) (loopless : Loopless.function object.decl = true) :
    Settles limit (room + 1) (body ctx object arguments) := by
  have statements : Settles limit room (stmts ctx object.decl.body) :=
    stmts_settles enters (Loopless.body_of_function loopless)
  refine .bind (.deeper (.within ?_ object.closure)) fun flow => ?_
  · exact .bind (.modifyGet (fun _ loopless => loopless) fun _ => rfl) fun _ => statements
  · split <;> exact .pure _

/-- Calls come to an end as soon as their bound reaches the number of calls that may still be opened, by
induction on the bound. -/
theorem enters_context (bindings : Bindings) (limit bound : Nat) :
    Enters limit bound (context bindings limit bound) := by
  induction bound with
  | zero =>
    refine ⟨rfl, fun id arguments m _ shallow room => ?_⟩
    exact absurd room (Nat.not_le_of_lt shallow)
  | succ bound ih =>
    refine ⟨rfl, fun id arguments m loopless _ room => ?_⟩
    exact body_settles ih arguments (loopless.functionAt id) m loopless room

end Exec
end Lox
