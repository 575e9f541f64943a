import Lox.Environment
import Lox.Sink
import Lox.Text.Quoted
import Lox.Value.Operator

set_option autoImplicit false

/-! The state of a running program: its variables, its objects, how many calls it is inside of, and
what it has written. -/

namespace Lox

/-- A function, the chain of the code that made it, and the instance it is bound to. -/
structure FunctionObject where
  decl : FunctionDecl
  closure : Chain
  receiver : Option InstanceId
deriving Inhabited

/-- A class. Its members are the first values of its fields and its methods; `this` of a method
lives in its slot, if it has one. -/
structure ClassObject where
  name : String
  members : Table String Value
  thisSlot : Option Slot
deriving Inhabited

structure InstanceObject where
  owner : ClassId
  fields : Table String Value
deriving Inhabited

structure Machine where
  environment : Environment
  functions : Array FunctionObject
  classes : Array ClassObject
  instances : Array InstanceObject
  depth : Nat
  output : Sink

/-- Why a program stopped: a fault at some token, or a failure of its output. -/
inductive RuntimeError where
  | faulted (fault : RuntimeFault) (token : Token)
  | outputFailed (failure : SinkFailure)
deriving Repr, Inhabited

def RuntimeError.diagnostic : RuntimeError → Diagnostic
  | faulted fault token => ⟨.runtime, fault.message, some token.span, true⟩
  | outputFailed failure => ⟨.output, failure.message, none, true⟩

namespace FunctionObject

def isInitializer (object : FunctionObject) : Bool :=
  object.decl.kind == .initializer

def arity (object : FunctionObject) : Nat :=
  object.decl.params.length

def text (object : FunctionObject) : String :=
  match object.decl.name with
  | some name => "<fn " ++ name.lexeme ++ ">"
  | none => "<fn>"

end FunctionObject

namespace Machine

def new (output : Sink) : Machine where
  environment := Environment.new
  functions := #[]
  classes := #[]
  instances := #[]
  depth := 0
  output := output

instance : Inhabited Machine := ⟨new .unlimited⟩

def functionAt (m : Machine) (id : FunctionId) : FunctionObject :=
  m.functions.getD id default

def classAt (m : Machine) (id : ClassId) : ClassObject :=
  m.classes.getD id default

def instanceAt (m : Machine) (id : InstanceId) : InstanceObject :=
  m.instances.getD id default

def addFunction (m : Machine) (object : FunctionObject) : FunctionId × Machine :=
  (m.functions.size, { m with functions := m.functions.push object })

def addClass (m : Machine) (object : ClassObject) : ClassId × Machine :=
  (m.classes.size, { m with classes := m.classes.push object })

def addInstance (m : Machine) (id : ClassId) : InstanceId × Machine :=
  (m.instances.size, { m with instances := m.instances.push ⟨id, Table.empty⟩ })

def setField (m : Machine) (id : InstanceId) (name : String) (value : Value) : Machine :=
  { m with
    instances := m.instances.modify id fun object =>
      { object with fields := object.fields.insert name value } }

/-- A new function that is a given one bound to an instance: within its chain, a new frame holds the
instance. -/
def bindFunction (m : Machine) (id : FunctionId) (receiver : InstanceId) (thisSlot : Slot) :
    FunctionId × Machine :=
  let object := m.functionAt id
  let closure := m.environment.inner object.closure
  { m with environment := m.environment.push (Environment.cell thisSlot (.instance receiver)) }
    |>.addFunction { object with closure, receiver := some receiver }

/-- The function that sets up new instances of a class: its member `init`, if that is an
initializer. -/
def initializer? (m : Machine) (object : ClassObject) : Option FunctionId :=
  match object.members.get? "init" with
  | some (.function id) => if (m.functionAt id).isInitializer then some id else none
  | _ => none

def arityOfClass (m : Machine) (object : ClassObject) : Nat :=
  match m.initializer? object with
  | some id => (m.functionAt id).arity
  | none => 0

/-- What a property of an instance is: its own field or else a member of its class. A function among
the members is bound to the instance, as long as the class has a slot for `this`. -/
def getProperty (m : Machine) (id : InstanceId) (name : String) : Option Value × Machine :=
  let object := m.instanceAt id
  match object.fields.get? name with
  | some value => (some value, m)
  | none =>
    let owner := m.classAt object.owner
    match owner.members.get? name, owner.thisSlot with
    | some (.function f), some slot =>
      let (bound, m) := m.bindFunction f id slot
      (some (.function bound), m)
    | member, _ => (member, m)

def text (m : Machine) : Value → String
  | .nil => "nil"
  | .bool true => "true"
  | .bool false => "false"
  | .number x => Decimal.format Value.numberStyle x
  | .string s => s
  | .function id => (m.functionAt id).text
  | .class id => (m.classAt id).name
  | .instance id => (m.classAt (m.instanceAt id).owner).name ++ " instance"

/-- An instance with the names of its own fields, in order. -/
def describe (m : Machine) (id : InstanceId) : String :=
  let object := m.instanceAt id
  let names := object.fields.keys.mergeSort (· ≤ ·)
  "LoxInstance \x7b class: " ++ Text.quoted (m.classAt object.owner).name ++ ", fields: [" ++
    ", ".intercalate (names.map Text.quoted) ++ "] \x7d"

def reset (m : Machine) : Machine :=
  { m with environment := m.environment.reset, depth := 0 }

end Machine
end Lox
