import Lox.Scope.Bindings
import Lox.Table
import Lox.Value.Basic

set_option autoImplicit false

/-! Where variables live. Local variables live in frames, found by slot along a chain of frames;
frames are shared, so that an assignment through one chain is seen through every other. Global
variables live in one table, found by name. -/

namespace Lox

abbrev FrameId := Nat

abbrev Frame := Table Slot Value

/-- A frame and the frames around it, innermost first. -/
structure Chain where
  frame : FrameId
  outer : List FrameId
deriving Repr, DecidableEq, Inhabited

def Chain.frames (chain : Chain) : List FrameId :=
  chain.frame :: chain.outer

/-- All frames, the chain of the code that runs, the chain of code outside all blocks, and the
global variables. -/
structure Environment where
  frames : Array Frame
  current : Chain
  root : Chain
  globals : Table String Value

namespace Environment

def new : Environment where
  frames := #[Table.empty]
  current := ⟨0, []⟩
  root := ⟨0, []⟩
  globals := Table.empty

instance : Inhabited Environment := ⟨new⟩

def frame (env : Environment) (id : FrameId) : Frame :=
  env.frames.getD id Table.empty

def find? (env : Environment) (chain : Chain) (slot : Slot) : Option FrameId :=
  chain.frames.find? fun id => (env.frame id).contains slot

def read? (env : Environment) (chain : Chain) (slot : Slot) : Option Value :=
  chain.frames.findSome? fun id => (env.frame id).get? slot

def setCell (env : Environment) (id : FrameId) (slot : Slot) (value : Value) : Environment :=
  { env with frames := env.frames.modify id (·.insert slot value) }

def define (env : Environment) (slot : Slot) (value : Value) : Environment :=
  env.setCell env.current.frame slot value

def get? (env : Environment) (slot : Slot) : Option Value :=
  env.read? env.current slot

def assign? (env : Environment) (slot : Slot) (value : Value) : Option Environment :=
  (env.find? env.current slot).map fun id => env.setCell id slot value

/-- The chain of the next new frame, if it is put within a given chain. -/
def inner (env : Environment) (chain : Chain) : Chain :=
  ⟨env.frames.size, chain.frames⟩

def push (env : Environment) (cells : Frame) : Environment :=
  { env with frames := env.frames.push cells }

def cell (slot : Slot) (value : Value) : Frame :=
  Table.empty.insert slot value

def extend (env : Environment) (chain : Chain) (slot : Slot) (value : Value) :
    Chain × Environment :=
  (env.inner chain, env.push (cell slot value))

def graft (env : Environment) (chain : Chain) : Environment :=
  let inner := env.inner chain
  { env.push Table.empty with current := inner }

def enter (env : Environment) : Environment :=
  env.graft env.current

def restore (env : Environment) (chain : Chain) : Environment :=
  { env with current := chain }

def reset (env : Environment) : Environment :=
  env.restore env.root

def defineGlobal (env : Environment) (name : String) (value : Value) : Environment :=
  { env with globals := env.globals.insert name value }

def getGlobal? (env : Environment) (name : String) : Option Value :=
  env.globals.get? name

def assignGlobal? (env : Environment) (name : String) (value : Value) : Option Environment :=
  if env.globals.contains name then some (env.defineGlobal name value) else none

/-- The innermost frame as text: its slots in increasing order, and whether it stands within
another. -/
def describe (env : Environment) : String :=
  let slots := (env.frame env.current.frame).keys.mergeSort (· ≤ ·)
  let texts := slots.map fun slot => "SlotId(" ++ toString slot ++ ")"
  let enclosed := if env.current.outer.isEmpty then "false" else "true"
  "FrameChain(Frame \x7b slots: [" ++ ", ".intercalate texts ++ "], enclosing: " ++ enclosed ++
    " \x7d)"

end Environment
end Lox
