import Lox.Proofs.Depth.Load
import Lox.Proofs.Machine.Keeps
import Lox.Proofs.Switch.Code

set_option autoImplicit false

/-! Two runs beside each other, on machines that differ in hidden variables alone. Nothing but the comparisons
of a switch looks at a hidden variable, and what runs in new frames leaves the hidden variables of the
frames around it as they are. -/

namespace Lox

/-- What is known of nodes: where they are bound, that names as they are read have no veiled slot, and that
hidden variables have one. -/
structure Veils (known : Site → Prop) (bindings : Bindings) (veiled : Slot → Prop) : Prop where
  bound : ∀ site, known site → site.Bound bindings
  free : ∀ site, known site → ∀ id name slot, site.mention.named? = some (id, name) → name.Plain →
    bindings.slot? id = some slot → ¬veiled slot
  hidden : ∀ site, known site → ∀ id name slot, site.mention = .declaration id name → ¬name.Plain →
    bindings.slot? id = some slot → veiled slot

section

variable (known : Site → Prop) (veiled : Slot → Prop)

/-- A function whose code is known. -/
def FunctionDecl.Stands (decl : FunctionDecl) : Prop :=
  ∃ role path, (∀ site ∈ Sites.function role path decl, known site) ∧
    FunctionDecl.Like .plain decl decl

namespace Machine

/-- The code of all functions is known. -/
def Stands (m : Machine) : Prop :=
  ∀ id, (m.functionAt id).decl.Stands known

def withFrames (m : Machine) (frames : Array Frame) : Machine :=
  { m with environment := { m.environment with frames } }

/-- The machine in another chain. -/
def restored (m : Machine) (chain : Chain) : Machine :=
  { m with environment := m.environment.restore chain }

/-- Machines that are equal but for veiled cells of their frames. -/
structure AlikeBut (m n : Machine) : Prop where
  rest : n = m.withFrames n.environment.frames
  size : n.environment.frames.size = m.environment.frames.size
  cells : ∀ id slot, ¬veiled slot →
    (n.environment.frame id).get? slot = (m.environment.frame id).get? slot

/-- All frames from before have their veiled cells. -/
structure SavesFrames (m after : Machine) : Prop where
  size : m.environment.frames.size ≤ after.environment.frames.size
  cells : ∀ id slot, id < m.environment.frames.size → veiled slot →
    (after.environment.frame id).get? slot = (m.environment.frame id).get? slot

/-- Moreover, the code that runs is in the same chain as before. -/
structure Saves (m after : Machine) : Prop extends SavesFrames veiled m after where
  current : after.environment.current = m.environment.current

/-- What a step leaves on one side, and on the other. -/
structure Moves (m after last : Machine) : Prop where
  alike : after.AlikeBut veiled last
  stands : after.Stands known
  saves : m.Saves veiled after

end Machine

/-- Two runs end alike. -/
inductive Exec.Ended {α : Type} (m : Machine) :
    EStateM.Result Stop Machine α → EStateM.Result Stop Machine α → Prop
  | ok {a : α} {after last : Machine} (moves : m.Moves known veiled after last) :
      Ended m (.ok a after) (.ok a last)
  | error {stop : Stop} {after last : Machine} (moves : m.Moves known veiled after last) :
      Ended m (.error stop after) (.error stop last)

/-- Computations that end alike on machines that are alike. -/
def Exec.Beside {α : Type} (x y : Exec α) : Prop :=
  ∀ m n, m.AlikeBut veiled n → m.Stands known → Ended known veiled m (x m) (y n)

end

variable {known : Site → Prop} {veiled : Slot → Prop} {m n after last : Machine} {α β : Type}

namespace Machine

theorem AlikeBut.refl (m : Machine) : m.AlikeBut veiled m :=
  ⟨rfl, rfl, fun _ _ _ => rfl⟩

theorem AlikeBut.current (alike : m.AlikeBut veiled n) :
    n.environment.current = m.environment.current :=
  congrArg (·.environment.current) alike.rest

theorem AlikeBut.globals (alike : m.AlikeBut veiled n) :
    n.environment.globals = m.environment.globals :=
  congrArg (·.environment.globals) alike.rest

theorem AlikeBut.functionAt (alike : m.AlikeBut veiled n) (id : FunctionId) :
    n.functionAt id = m.functionAt id :=
  congrArg (·.functionAt id) alike.rest

theorem Stands.of_functions (stands : m.Stands known) (same : after.functions = m.functions) :
    after.Stands known := by
  intro id
  unfold Machine.functionAt
  rw [same]
  exact stands id

theorem Stands.addFunction (stands : m.Stands known) {object : FunctionObject}
    (own : object.decl.Stands known) : (m.addFunction object).2.Stands known := by
  intro id
  rw [functionAt_addFunction]
  split
  · exact own
  · exact stands id

theorem SavesFrames.of_environment (same : after.environment = m.environment) :
    m.SavesFrames veiled after := by
  refine ⟨Nat.le_of_eq (by rw [same]), fun id slot _ _ => ?_⟩
  rw [same]

theorem SavesFrames.trans {first second third : Machine} (one : first.SavesFrames veiled second)
    (two : second.SavesFrames veiled third) : first.SavesFrames veiled third :=
  ⟨Nat.le_trans one.size two.size, fun id slot old isVeiled =>
    (two.cells id slot (Nat.lt_of_lt_of_le old one.size) isVeiled).trans
      (one.cells id slot old isVeiled)⟩

theorem Saves.of_environment (same : after.environment = m.environment) : m.Saves veiled after :=
  ⟨.of_environment same, by rw [same]⟩

theorem Saves.refl (m : Machine) : m.Saves veiled m :=
  .of_environment rfl

theorem Saves.trans {first second third : Machine} (one : first.Saves veiled second)
    (two : second.Saves veiled third) : first.Saves veiled third :=
  ⟨one.toSavesFrames.trans two.toSavesFrames, two.current.trans one.current⟩

theorem Moves.since {middle : Machine} (saves : m.Saves veiled middle)
    (moves : middle.Moves known veiled after last) : m.Moves known veiled after last :=
  ⟨moves.alike, moves.stands, saves.trans moves.saves⟩

end Machine

namespace Exec

theorem Ended.since {middle : Machine} (saves : m.Saves veiled middle)
    {one two : EStateM.Result Stop Machine α} (ended : Ended known veiled middle one two) :
    Ended known veiled m one two := by
  cases ended with
  | ok moves => exact .ok (moves.since saves)
  | error moves => exact .error (moves.since saves)

/-- Two sequences, one of whose parts end alike here and the others wherever that leads. -/
theorem Ended.bind {x y : Exec α} {f g : α → Exec β} (first : Ended known veiled m (x m) (y n))
    (later : ∀ a after last, m.Moves known veiled after last →
      Ended known veiled after (f a after) (g a last)) :
    Ended known veiled m ((x >>= f) m) ((y >>= g) n) := by
  change Ended known veiled m (EStateM.bind x f m) (EStateM.bind y g n)
  unfold EStateM.bind
  generalize x m = one at first ⊢
  generalize y n = two at first ⊢
  cases first with
  | ok moves => exact (later _ _ _ moves).since moves.saves
  | error moves => exact .error moves

namespace Beside

theorem pure (a : α) : Beside known veiled (return a) (return a) :=
  fun m _ alike stands => .ok ⟨alike, stands, .refl m⟩

theorem throw (stop : Stop) : Beside known veiled (throw stop : Exec α) (throw stop) :=
  fun m _ alike stands => .error ⟨alike, stands, .refl m⟩

theorem bind {x y : Exec α} {f g : α → Exec β} (first : Beside known veiled x y)
    (later : ∀ a, Beside known veiled (f a) (g a)) : Beside known veiled (x >>= f) (y >>= g) :=
  fun m n alike stands => (first m n alike stands).bind fun a after last moves =>
    later a after last moves.alike moves.stands

theorem map {x y : Exec α} (same : Beside known veiled x y) (f : α → β) :
    Beside known veiled (f <$> x) (f <$> y) := by
  rw [map_eq_pure_bind, map_eq_pure_bind]
  exact same.bind fun a => .pure (f a)

/-- What is looked up on the machine does not depend on its frames. -/
theorem get_bind {f g : Machine → Exec α} (blind : ∀ m frames, g (Machine.withFrames m frames) = g m)
    (rest : ∀ m, m.Stands known → Beside known veiled (f m) (g m)) :
    Beside known veiled (get >>= f) (get >>= g) := by
  intro m n alike stands
  have same : g n = g m := by
    rw [alike.rest]
    exact blind m _
  change Ended known veiled m (f m m) (g n n)
  rw [same]
  exact rest m stands m n alike stands

theorem repeatWhile {test test' : Exec Bool} {round round' : Exec Flow}
    (tests : Beside known veiled test test') (runs : Beside known veiled round round') (rounds : Nat) :
    Beside known veiled (repeatWhile test round rounds) (repeatWhile test' round' rounds) := by
  induction rounds with
  | zero => exact .throw _
  | succ rounds ih =>
    rw [repeatWhile_succ, repeatWhile_succ]
    refine tests.bind fun holds => ?_
    cases holds with
    | false => exact .pure _
    | true =>
      refine runs.bind fun flow => ?_
      cases flow with
      | normal => exact ih
      | returned value => exact .pure _

end Beside
end Exec

/-! ### Frames -/

namespace Machine

variable {slot : Slot} {value : Value} {chain : Chain} {environment other : Environment}

/-- Machines that are alike but for their environments, in which nothing else differs. -/
theorem AlikeBut.of_environments (alike : m.AlikeBut veiled n)
    (rest : other = { environment with frames := other.frames })
    (size : other.frames.size = environment.frames.size)
    (cells : ∀ id slot, ¬veiled slot →
      (other.frame id).get? slot = (environment.frame id).get? slot) :
    AlikeBut veiled { m with environment := environment } { n with environment := other } := by
  refine ⟨?_, size, cells⟩
  rw [alike.rest]
  exact congrArg (fun env : Environment => { m with environment := env }) rest

/-- A change that does not depend on frames. -/
theorem AlikeBut.blind (alike : m.AlikeBut veiled n) (change : Machine → Machine)
    (blind : ∀ m frames, change (withFrames m frames) = (change m).withFrames frames)
    (environment : ∀ m, (change m).environment = m.environment) :
    (change m).AlikeBut veiled (change n) := by
  refine ⟨?_, ?_, fun id slot unveiled => ?_⟩
  · rw [environment, ← blind, ← alike.rest]
  · rw [environment, environment]
    exact alike.size
  · rw [environment, environment]
    exact alike.cells id slot unveiled

theorem AlikeBut.setCell (alike : m.AlikeBut veiled n) (id : FrameId) (slot : Slot) (value : Value) :
    AlikeBut veiled { m with environment := m.environment.setCell id slot value }
      { n with environment := n.environment.setCell id slot value } := by
  refine alike.of_environments ?_ ?_ fun other wanted unveiled => ?_
  · rw [alike.rest]
    rfl
  · rw [Environment.size_setCell, Environment.size_setCell, alike.size]
  · rw [Environment.get?_frame_setCell, Environment.get?_frame_setCell, alike.size,
      alike.cells other wanted unveiled]

/-- A veiled cell is written on one side alone. -/
theorem AlikeBut.setVeiled (alike : m.AlikeBut veiled n) (id : FrameId) (value : Value)
    (isVeiled : veiled slot) :
    AlikeBut veiled { m with environment := m.environment.setCell id slot value } n := by
  refine alike.of_environments ?_ ?_ fun other wanted unveiled => ?_
  · rw [alike.rest]
    rfl
  · rw [Environment.size_setCell, alike.size]
  · have apart : slot ≠ wanted := fun same => unveiled (same ▸ isVeiled)
    rw [Environment.get?_frame_setCell, if_neg fun ⟨_, _, same⟩ => apart same,
      alike.cells other wanted unveiled]

theorem AlikeBut.push (alike : m.AlikeBut veiled n) (cells : Frame) :
    AlikeBut veiled { m with environment := m.environment.push cells }
      { n with environment := n.environment.push cells } := by
  refine alike.of_environments ?_ ?_ fun other wanted unveiled => ?_
  · rw [alike.rest]
    rfl
  · unfold Environment.push
    rw [Array.size_push, Array.size_push, alike.size]
  · rw [Environment.frame_push, Environment.frame_push, alike.size]
    split
    · rfl
    · exact alike.cells other wanted unveiled

theorem AlikeBut.restore (alike : m.AlikeBut veiled n) (chain : Chain) :
    (m.restored chain).AlikeBut veiled (n.restored chain) := by
  refine alike.of_environments ?_ alike.size alike.cells
  rw [alike.rest]
  rfl

theorem AlikeBut.inner (alike : m.AlikeBut veiled n) (chain : Chain) :
    n.environment.inner chain = m.environment.inner chain := by
  unfold Environment.inner
  rw [alike.size]

theorem AlikeBut.graft (alike : m.AlikeBut veiled n) (chain : Chain) :
    AlikeBut veiled { m with environment := m.environment.graft chain }
      { n with environment := n.environment.graft chain } := by
  have same : n.environment.graft chain =
      (n.environment.push Table.empty).restore (m.environment.inner chain) := by
    rw [← alike.inner chain]
    rfl
  rw [same]
  exact (alike.push Table.empty).restore (m.environment.inner chain)

/-- Of the frames that are there, only those that get another value in a veiled cell are not saved. -/
theorem saves_setCell (m : Machine) (id : FrameId) (value : Value) (unveiled : ¬veiled slot) :
    m.Saves veiled { m with environment := m.environment.setCell id slot value } := by
  refine ⟨⟨Nat.le_of_eq (Environment.size_setCell ..).symm, fun other wanted _ isVeiled => ?_⟩, rfl⟩
  have apart : slot ≠ wanted := fun same => unveiled (same ▸ isVeiled)
  change ((m.environment.setCell id slot value).frame other).get? wanted = _
  rw [Environment.get?_frame_setCell, if_neg fun ⟨_, _, same⟩ => apart same]

theorem saves_push (m : Machine) (cells : Frame) :
    m.Saves veiled { m with environment := m.environment.push cells } := by
  refine ⟨⟨?_, fun id slot old _ => ?_⟩, rfl⟩
  · unfold Environment.push
    rw [Array.size_push]
    exact Nat.le_succ _
  · change ((m.environment.push cells).frame id).get? slot = _
    rw [Environment.frame_push, if_neg (Nat.ne_of_lt old)]

theorem savesFrames_graft (m : Machine) (chain : Chain) :
    m.SavesFrames veiled { m with environment := m.environment.graft chain } := by
  have pushed : m.Saves veiled { m with environment := m.environment.push Table.empty } :=
    saves_push m Table.empty
  exact ⟨pushed.size, pushed.cells⟩

end Machine

/-! ### Steps -/

namespace Exec

theorem within_apply (x : Exec α) (chain : Chain) (m : Machine) :
    within chain x m = Outcome.onState (·.restored m.environment.current)
      (x { m with environment := m.environment.graft chain }) := by
  unfold Exec.within
  dsimp only
  cases x { m with environment := m.environment.graft chain } <;> rfl

/-- Runs that end alike still do so when the chain of an earlier machine is restored. -/
theorem Ended.restored {middle : Machine} (saves : m.SavesFrames veiled middle)
    {one two : EStateM.Result Stop Machine α} (ended : Ended known veiled middle one two) :
    Ended known veiled m (Outcome.onState (·.restored m.environment.current) one)
      (Outcome.onState (·.restored m.environment.current) two) := by
  have left {after last : Machine} (moves : middle.Moves known veiled after last) :
      m.Moves known veiled (after.restored m.environment.current)
        (last.restored m.environment.current) := by
    have frames := saves.trans moves.saves.toSavesFrames
    exact ⟨moves.alike.restore _, moves.stands.of_functions rfl, ⟨frames.size, frames.cells⟩, rfl⟩
  cases ended with
  | ok moves => exact .ok (left moves)
  | error moves => exact .error (left moves)

namespace Beside

theorem within {x y : Exec α} (inner : Beside known veiled x y) (chain : Chain) :
    Beside known veiled (within chain x) (within chain y) := by
  intro m n alike stands
  rw [within_apply, within_apply, alike.current]
  exact (inner _ _ (alike.graft chain) (stands.of_functions rfl)).restored
    (m.savesFrames_graft chain)

/-- A step that looks at no frame, and changes neither frames nor functions. -/
theorem silent {x : Exec α}
    (blind : ∀ m frames,
      x (Machine.withFrames m frames) = Outcome.onState (·.withFrames frames) (x m))
    (environment : ∀ m, (Outcome.state (x m)).environment = m.environment)
    (functions : ∀ m, (Outcome.state (x m)).functions = m.functions) : Beside known veiled x x := by
  intro m n alike stands
  have there := blind m n.environment.frames
  rw [← alike.rest] at there
  have here := environment m
  have same := functions m
  have moves {after : Machine} (isAfter : Outcome.state (x m) = after) :
      m.Moves known veiled after (after.withFrames n.environment.frames) := by
    subst isAfter
    refine ⟨⟨rfl, ?_, fun id slot unveiled => ?_⟩, stands.of_functions same, .of_environment here⟩
    · rw [here]
      exact alike.size
    · rw [here]
      exact alike.cells id slot unveiled
  rw [there]
  cases result : x m with
  | ok a after => exact .ok (moves (by rw [result]; rfl))
  | error stop after => exact .error (moves (by rw [result]; rfl))

theorem deeper {x y : Exec α} (inner : Beside known veiled x y) :
    Beside known veiled (deeper x) (deeper y) := by
  intro m n alike stands
  have ended := inner _ _ (alike.blind (fun m => { m with depth := m.depth + 1 }) (fun _ _ => rfl)
    fun _ => rfl) (stands.of_functions rfl)
  unfold Exec.deeper
  generalize x _ = one at ended ⊢
  generalize y _ = two at ended ⊢
  have leaves {after last : Machine}
      (moves : Machine.Moves known veiled { m with depth := m.depth + 1 } after last) :
      m.Moves known veiled { after with depth := after.depth - 1 }
        { last with depth := last.depth - 1 } :=
    ⟨moves.alike.blind (fun m => { m with depth := m.depth - 1 }) (fun _ _ => rfl) fun _ => rfl,
      moves.stands.of_functions rfl, ⟨moves.saves.size, moves.saves.cells⟩, moves.saves.current⟩
  cases ended with
  | ok moves => exact .ok (leaves moves)
  | error moves => exact .error (leaves moves)

theorem modify {change : Machine → Machine}
    (blind : ∀ m frames,
      change (Machine.withFrames m frames) = (change m).withFrames frames)
    (environment : ∀ m, (change m).environment = m.environment)
    (functions : ∀ m, (change m).functions = m.functions) :
    Beside known veiled (modify change) (modify change) :=
  silent (fun m frames => congrArg (EStateM.Result.ok ()) (blind m frames)) environment functions

end Beside
end Exec
end Lox
