import Lox.Machine.Evaluate

set_option autoImplicit false

/-! A memory without slots and frames. What is in sight at some place is a map from names to cells, which
never changes: a declaration yields a larger map, and a function keeps the map of the place where it was
made. Only the cells change. -/

namespace Lox.Lexical

abbrev Cell := Nat

/-- The local names in sight, latest first, and whether declarations are local here. -/
structure Sight where
  isLocal : Bool
  cells : List (String × Cell)
deriving Repr, DecidableEq, Inhabited

namespace Sight

def top : Sight :=
  ⟨false, []⟩

def find? (sight : Sight) (name : String) : Option Cell :=
  (sight.cells.find? (·.1 == name)).map (·.2)

def add (sight : Sight) (name : String) (cell : Cell) : Sight :=
  { sight with cells := (name, cell) :: sight.cells }

def enter (sight : Sight) : Sight :=
  { sight with isLocal := true }

theorem find?_add (sight : Sight) (name other : String) (cell : Cell) :
    (sight.add name cell).find? other = if name = other then some cell else sight.find? other := by
  by_cases same : name = other <;> simp [find?, add, same]

end Sight

/-- A function, what was in sight where it was made, and the instance it is bound to. -/
structure Closure where
  decl : FunctionDecl
  sight : Sight
  receiver : Option InstanceId
deriving Inhabited

/-- A class: its name and the values of its members. -/
structure Class where
  name : String
  members : Table String Value
deriving Inhabited

/-- All cells and objects, the global variables, how many calls the program is inside of, and what it
has written. -/
structure Memory where
  cells : Array Value
  globals : Table String Value
  functions : Array Closure
  classes : Array Class
  instances : Array InstanceObject
  depth : Nat
  output : Sink

namespace Closure

def isInitializer (object : Closure) : Bool :=
  object.decl.kind == .initializer

def arity (object : Closure) : Nat :=
  object.decl.params.length

def text (object : Closure) : String :=
  match object.decl.name with
  | some name => "<fn " ++ name.lexeme ++ ">"
  | none => "<fn>"

end Closure

namespace Memory

def new (output : Sink) : Memory where
  cells := #[]
  globals := Table.empty
  functions := #[]
  classes := #[]
  instances := #[]
  depth := 0
  output := output

def cellAt (n : Memory) (cell : Cell) : Value :=
  n.cells.getD cell .nil

def functionAt (n : Memory) (id : FunctionId) : Closure :=
  n.functions.getD id default

def classAt (n : Memory) (id : ClassId) : Class :=
  n.classes.getD id default

def instanceAt (n : Memory) (id : InstanceId) : InstanceObject :=
  n.instances.getD id default

def addCell (n : Memory) (value : Value) : Cell × Memory :=
  (n.cells.size, { n with cells := n.cells.push value })

def setCell (n : Memory) (cell : Cell) (value : Value) : Memory :=
  { n with cells := n.cells.setIfInBounds cell value }

def defineGlobal (n : Memory) (name : String) (value : Value) : Memory :=
  { n with globals := n.globals.insert name value }

def addFunction (n : Memory) (object : Closure) : FunctionId × Memory :=
  (n.functions.size, { n with functions := n.functions.push object })

def addClass (n : Memory) (object : Class) : ClassId × Memory :=
  (n.classes.size, { n with classes := n.classes.push object })

def addInstance (n : Memory) (id : ClassId) : InstanceId × Memory :=
  (n.instances.size, { n with instances := n.instances.push ⟨id, Table.empty⟩ })

def setField (n : Memory) (id : InstanceId) (name : String) (value : Value) : Memory :=
  { n with
    instances := n.instances.modify id fun object =>
      { object with fields := object.fields.insert name value } }

/-- A new function that is a given one bound to an instance, which it sees as `this`. -/
def bindFunction (n : Memory) (id : FunctionId) (receiver : InstanceId) : FunctionId × Memory :=
  let object := n.functionAt id
  let (cell, n) := n.addCell (.instance receiver)
  n.addFunction { object with sight := object.sight.add "this" cell, receiver := some receiver }

def initializer? (n : Memory) (object : Class) : Option FunctionId :=
  match object.members.get? "init" with
  | some (.function id) => if (n.functionAt id).isInitializer then some id else none
  | _ => none

def arityOfClass (n : Memory) (object : Class) : Nat :=
  match n.initializer? object with
  | some id => (n.functionAt id).arity
  | none => 0

/-- What a property of an instance is: its own field or else a member of its class. A function among
the members is bound to the instance. -/
def getProperty (n : Memory) (id : InstanceId) (name : String) : Option Value × Memory :=
  let object := n.instanceAt id
  match object.fields.get? name with
  | some value => (some value, n)
  | none =>
    match (n.classAt object.owner).members.get? name with
    | some (.function f) =>
      let (bound, n) := n.bindFunction f id
      (some (.function bound), n)
    | member => (member, n)

/-- What `print` writes for a value. -/
def text (n : Memory) : Value → String
  | .nil => "nil"
  | .bool true => "true"
  | .bool false => "false"
  | .number x => Decimal.format Value.numberStyle x
  | .string s => s
  | .function id => (n.functionAt id).text
  | .class id => (n.classAt id).name
  | .instance id => (n.classAt (n.instanceAt id).owner).name ++ " instance"

end Memory
end Lox.Lexical
