import Lox.Proofs.Tandem.Steps

set_option autoImplicit false

/-! An interpreter that keeps a chronicle. It goes through programs like the interpreter and notes what
happens to global variables, classes and instances: what is written, which classes and instances are
made, which properties are set and read, and which classes are called. -/

namespace Lox

namespace Chronicle

/-- Something that has happened. A class is made by a declaration; its fields were evaluated from some machine
on, and got certain first values. On the machine on which a property is read, `Machine.getProperty` says
what it is; on the one on which a class is called, `Exec.construct` does the rest. -/
inductive Deed where
  | wrote (name : String) (value : Value)
  | made (before : Machine) (id : ClassId) (decl : ClassDecl) (values : Table String Value)
      (slot : Option Slot)
  | born (id : InstanceId) (owner : ClassId)
  | set (id : InstanceId) (name : String) (value : Value)
  | read (before : Machine) (id : InstanceId) (name : String)
  | called (before : Machine) (id : ClassId) (arguments : List Value) (paren : Token)

/-- What a deed says about a global variable. -/
def Deed.wrote? (name : String) : Deed → Option Value
  | .wrote written value => if written = name then some value else none
  | _ => none

/-- What a deed says about a property of an instance. -/
def Deed.set? (id : InstanceId) (name : String) : Deed → Option Value
  | .set instanceId written value => if instanceId = id ∧ written = name then some value else none
  | _ => none

/-- Which property of which instance was read. -/
def Deed.read? : Deed → Option (Machine × InstanceId × String)
  | .read before id name => some (before, id, name)
  | _ => none

/-- Which class was called, with which arguments. -/
def Deed.called? : Deed → Option (Machine × ClassId × List Value × Token)
  | .called before id arguments paren => some (before, id, arguments, paren)
  | _ => none

/-- Which class was made, by which declaration and with which first values. -/
def Deed.made? : Deed → Option (ClassId × ClassDecl × Table String Value)
  | .made _ id decl values _ => some (id, decl, values)
  | _ => none

theorem Deed.eq_read {deed : Deed} {before : Machine} {id : InstanceId} {name : String}
    (found : deed.read? = some (before, id, name)) : deed = .read before id name := by
  cases deed <;> cases found
  rfl

theorem Deed.eq_called {deed : Deed} {before : Machine} {id : ClassId} {arguments : List Value}
    {paren : Token} (found : deed.called? = some (before, id, arguments, paren)) :
    deed = .called before id arguments paren := by
  cases deed <;> cases found
  rfl

theorem Deed.eq_made {deed : Deed} {id : ClassId} {decl : ClassDecl} {values : Table String Value}
    (found : deed.made? = some (id, decl, values)) :
    ∃ before slot, deed = .made before id decl values slot := by
  cases deed <;> cases found
  exact ⟨_, _, rfl⟩

/-- The value that was written last to a global variable; deeds are listed latest first. -/
def lastWritten? (deeds : List Deed) (name : String) : Option Value :=
  deeds.findSome? (Deed.wrote? name)

/-- The value to which a property of an instance was set last. -/
def lastSet? (deeds : List Deed) (id : InstanceId) (name : String) : Option Value :=
  deeds.findSome? (Deed.set? id name)

end Chronicle

/-- A machine and what has happened on it, latest first. -/
structure Chronicle where
  machine : Machine
  deeds : List Chronicle.Deed

abbrev Noting (α : Type) := EStateM Stop Chronicle α

namespace Noting

open Chronicle

variable {α : Type}

def machine : Noting Machine := fun c =>
  .ok c.machine c

/-- Notes something about the present machine. -/
def note (deed : Machine → Deed) : Noting Unit := fun c =>
  .ok () { c with deeds := deed c.machine :: c.deeds }

/-- Does what the interpreter does, and notes it if it succeeds. -/
def step (plain : Exec α) (deeds : α → List Deed) : Noting α := fun c =>
  match plain c.machine with
  | .ok a m => .ok a ⟨m, deeds a ++ c.deeds⟩
  | .error stop m => .error stop ⟨m, c.deeds⟩

/-- Does what the interpreter does. -/
def quietly (plain : Exec α) : Noting α :=
  step plain fun _ => []

/-- Takes a step before a body and another one after it, whatever its outcome. -/
def around (before after : Machine → Machine) (body : Noting α) : Noting α := fun c =>
  match body { c with machine := before c.machine } with
  | .ok a c => .ok a { c with machine := after c.machine }
  | .error stop c => .error stop { c with machine := after c.machine }

def within (chain : Chain) (body : Noting α) : Noting α := fun c =>
  let previous := c.machine.environment.current
  around (fun m => { m with environment := m.environment.graft chain })
    (fun m => { m with environment := m.environment.restore previous }) body c

def deeper (body : Noting α) : Noting α :=
  around (fun m => { m with depth := m.depth + 1 }) (fun m => { m with depth := m.depth - 1 }) body

/-- How functions are called. -/
abbrev Calls := FunctionId → List Value → Noting Value

section

variable (ctx : Context)

/-- A variable without a slot is global. -/
def written (id : NodeId) (name : Token) (value : Value) : List Deed :=
  match ctx.bindings.slot? id with
  | some _ => []
  | none => [.wrote name.lexeme value]

def store (id : NodeId) (name : Token) (value : Value) : Noting Unit :=
  step (Exec.store ctx id name value) fun _ => written ctx id name value

def declare (id : NodeId) (name : Token) (value : Value) : Noting Unit :=
  step (Exec.declare ctx id name value) fun _ => written ctx id name value

def getProperty (object : Value) (name : Token) : Noting Value := do
  match object with
  | .instance id =>
    note (.read · id name.lexeme)
    quietly (Exec.getProperty (.instance id) name)
  | _ => quietly (Exec.getProperty object name)

def setProperty (id : InstanceId) (name : Token) (value : Value) : Noting Unit :=
  step (modify (·.setField id name.lexeme value)) fun _ => [.set id name.lexeme value]

/-- Makes the class of a declaration whose fields have got their first values, from some machine on. -/
def finishClass (decl : ClassDecl) (before : Machine) (values : Table String Value) : Noting Unit := do
  let members ← quietly (do Exec.addMethods (← Exec.capture) values decl.methods)
  let slot := ctx.bindings.slot? decl.thisId
  let made ← step (modifyGet (·.addClass ⟨decl.name.lexeme, members, slot⟩))
    fun made => [.made before made decl values slot]
  store ctx decl.id decl.name (.class made)

def makeClass (decl : ClassDecl) (evaluate : Noting (Table String Value)) : Noting Unit := do
  declare ctx decl.id decl.name .nil
  let before ← machine
  finishClass ctx decl before (← evaluate)

variable (call : Calls)

def callFunction (id : FunctionId) (arguments : List Value) (paren : Token) : Noting Value := do
  if ctx.maxDepth ≤ (← machine).depth then
    quietly (Exec.fail .tooDeep paren)
  else
    call id arguments

def construct (id : ClassId) (arguments : List Value) (paren : Token) : Noting Value := do
  note (.called · id arguments paren)
  let object := (← machine).classAt id
  let initial := (← machine).initializer? object
  quietly (Exec.checkArity ((← machine).arityOfClass object) arguments.length paren)
  let fresh ← step (modifyGet (·.addInstance id)) fun fresh => [.born fresh id]
  match initial, object.thisSlot with
  | some f, some slot =>
    let bound ← quietly (modifyGet (·.bindFunction f fresh slot))
    let _ ← callFunction ctx call bound arguments paren
    return .instance fresh
  | _, _ => return .instance fresh

def invoke (callee : Value) (arguments : List Value) (paren : Token) : Noting Value := do
  match callee with
  | .function id =>
    quietly (Exec.checkArity ((← machine).functionAt id).arity arguments.length paren)
    callFunction ctx call id arguments paren
  | .class id => construct ctx call id arguments paren
  | _ => quietly (Exec.fail .notCallable paren)

def steps : Steps Chronicle where
  rounds := ctx.rounds
  lookUp id name := quietly (Exec.lookUp ctx id name)
  store := store ctx
  declare := declare ctx
  close decl := quietly (Exec.close decl)
  getProperty := getProperty
  setProperty := setProperty
  print value := quietly (Exec.print value)
  invoke := invoke ctx call
  scope body := fun c => within c.machine.environment.current body c
  makeClass := makeClass ctx

/-- Runs the body of a function in a new frame. An initializer yields its instance. -/
def body (object : FunctionObject) (arguments : List Value) : Noting Value := do
  let flow ← deeper <| within object.closure do
    quietly <| modify fun m => { m with
      environment := Exec.bindParams ctx.bindings m.environment object.decl.params arguments }
    (steps ctx call).stmts object.decl.body
  match object.isInitializer, object.receiver, flow with
  | true, some receiver, _ => return .instance receiver
  | _, _, .returned value => return value
  | _, _, .normal => return .nil

end

def calls (bindings : Bindings) (maxDepth : Nat) : Nat → Calls
  | 0, _, _ => throw .exhausted
  | bound + 1, id, arguments => do
    let object := (← machine).functionAt id
    body (Exec.context bindings maxDepth bound) (calls bindings maxDepth bound) object arguments

/-- The steps of programs, with so many calls nested in each other and rounds of each loop. -/
def interpreter (bindings : Bindings) (maxDepth bound : Nat) : Steps Chronicle :=
  steps (Exec.context bindings maxDepth bound) (calls bindings maxDepth bound)

end Noting
end Lox
