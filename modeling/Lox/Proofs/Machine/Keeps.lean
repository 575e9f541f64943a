import Lox.Proofs.Machine.Guarded
import Lox.Proofs.Machine.Sound

set_option autoImplicit false

/-! Two runs that end alike. Both start on one machine; they have the same outcome, leave a sound machine
in the same chain, and find no variable undefined whose node has a slot. Sequences, frames, calls and
loops are alike if their parts are. -/

namespace Lox

def Mention.named? : Mention → Option (NodeId × Token)
  | .declaration id name => some (id, name)
  | .reference id name => some (id, name)
  | .this id keyword => some (id, keyword)
  | _ => none

/-- If a run stops at an undefined variable, then at a node that is global. -/
def Blamed (known : Site → Prop) (bindings : Bindings) (stop : Stop) : Prop :=
  ∀ name token, stop = .error (.faulted (.undefinedVariable name) token) →
    ∃ site id, known site ∧ site.mention.named? = some (id, token) ∧
      bindings.slot? id = none ∧ token.lexeme = name

def Kept {α : Type} (known : Site → Prop) (bindings : Bindings) (m : Machine)
    (good : Machine → α → Prop) : EStateM.Result Stop Machine α → Prop
  | .ok a after => m.Steps known bindings after ∧ good after a
  | .error stop after => m.Steps known bindings after ∧ Blamed known bindings stop

theorem Kept.after {α : Type} {known : Site → Prop} {bindings : Bindings} {m middle : Machine}
    {good : Machine → α → Prop} {result : EStateM.Result Stop Machine α}
    (steps : m.Steps known bindings middle) (kept : Kept known bindings middle good result) :
    Kept known bindings m good result := by
  cases result with
  | ok a last => exact ⟨steps.trans kept.1, kept.2⟩
  | error stop last => exact ⟨steps.trans kept.1, kept.2⟩

/-- Two runs end alike and leave what they should. -/
structure Keeps {α : Type} (known : Site → Prop) (bindings : Bindings) (m : Machine)
    (guarded plain : Exec α) (good : Machine → α → Prop) : Prop where
  same : guarded m = plain m
  kept : Kept known bindings m good (plain m)

variable {known : Site → Prop} {bindings : Bindings} {m after : Machine} {path : Path}
  {α β : Type}

theorem blamed_of_other {stop : Stop}
    (other : ∀ name token, stop ≠ .error (.faulted (.undefinedVariable name) token)) :
    Blamed known bindings stop :=
  fun name token same => absurd same (other name token)

namespace Keeps

variable {guarded plain : Exec α} {good : Machine → α → Prop}

theorem pure {a : α} (sound : m.Sound known bindings) (isGood : good m a) :
    Keeps known bindings m (return a) (return a) good :=
  ⟨rfl, Machine.Steps.refl sound, isGood⟩

theorem fail (sound : m.Sound known bindings) {fault : RuntimeFault} (token : Token)
    (other : ∀ name, fault ≠ .undefinedVariable name) :
    Keeps known bindings m (Exec.fail fault token) (Exec.fail fault token) good := by
  refine ⟨rfl, Machine.Steps.refl sound, blamed_of_other fun name token same => ?_⟩
  cases same
  exact other name rfl

theorem bind {next : Machine → β → Prop} {first second : α → Exec β}
    (one : Keeps known bindings m guarded plain good)
    (two : ∀ a after, m.Steps known bindings after → good after a →
      Keeps known bindings after (first a) (second a) next) :
    Keeps known bindings m (guarded >>= first) (plain >>= second) next := by
  obtain ⟨same, kept⟩ := one
  cases result : plain m with
  | ok a middle =>
      rw [result] at same kept
      obtain ⟨alike, later⟩ := two a middle kept.1 kept.2
      constructor
      · rw [Outcome.bind_of_ok same, Outcome.bind_of_ok result]
        exact alike
      · rw [Outcome.bind_of_ok result]
        exact later.after kept.1
  | error stop middle =>
      rw [result] at same kept
      constructor
      · rw [Outcome.bind_of_error same, Outcome.bind_of_error result]
      · rw [Outcome.bind_of_error result]
        exact kept

theorem imp {better : Machine → α → Prop} (keeps : Keeps known bindings m guarded plain good)
    (improves : ∀ a after, m.Steps known bindings after → good after a → better after a) :
    Keeps known bindings m guarded plain better := by
  refine ⟨keeps.same, ?_⟩
  have kept := keeps.kept
  cases result : plain m with
  | ok a middle =>
      rw [result] at kept
      exact ⟨kept.1, improves a middle kept.1 kept.2⟩
  | error stop middle =>
      rw [result] at kept
      exact kept

theorem map {next : Machine → β → Prop} (f : α → β) (keeps : Keeps known bindings m guarded plain good)
    (improves : ∀ a after, m.Steps known bindings after → good after a → next after (f a)) :
    Keeps known bindings m (f <$> guarded) (f <$> plain) next := by
  rw [map_eq_pure_bind, map_eq_pure_bind]
  exact keeps.bind fun a after steps isGood => pure steps.sound (improves a after steps isGood)

theorem capture_bind {next : Machine → β → Prop} {first second : Chain → Exec β}
    (rest : Keeps known bindings m (first m.environment.current) (second m.environment.current)
      next) :
    Keeps known bindings m (Exec.capture >>= first) (Exec.capture >>= second) next :=
  ⟨rest.same, rest.kept⟩

theorem get_bind {next : Machine → β → Prop} {first second : Machine → Exec β}
    (rest : Keeps known bindings m (first m) (second m) next) :
    Keeps known bindings m (get >>= first) (get >>= second) next :=
  ⟨rest.same, rest.kept⟩

theorem modify {change : Machine → Machine} (steps : m.Steps known bindings (change m)) :
    Keeps known bindings m (modify change) (modify change) fun last _ => last = change m :=
  ⟨rfl, steps, rfl⟩

theorem modifyGet_bind {next : Machine → β → Prop} {change : Machine → α × Machine}
    {first second : α → Exec β} (steps : m.Steps known bindings (change m).2)
    (rest : Keeps known bindings (change m).2 (first (change m).1) (second (change m).1) next) :
    Keeps known bindings m (modifyGet change >>= first) (modifyGet change >>= second) next := by
  have done : Keeps known bindings m (modifyGet change : Exec α) (modifyGet change)
      fun last a => last = (change m).2 ∧ a = (change m).1 := ⟨rfl, steps, rfl, rfl⟩
  refine done.bind fun a last _ same => ?_
  rw [same.1, same.2]
  exact rest

theorem within (sound : m.Sound known bindings) (chain : Chain)
    (stable : ∀ a last chain, good last a →
      good { last with environment := last.environment.restore chain } a)
    (inner : Keeps known bindings { m with environment := m.environment.graft chain }
      guarded plain good) :
    Keeps known bindings m (Exec.within chain guarded) (Exec.within chain plain) good := by
  have grafted := sound.graft chain
  have back (last : Machine)
      (steps : Machine.Steps known bindings
        { m with environment := m.environment.graft chain } last) :
      m.Steps known bindings
        { last with environment := last.environment.restore m.environment.current } := by
    have all := grafted.2.trans steps.grows
    refine ⟨steps.sound.restore _ (Nat.lt_of_lt_of_le sound.current all.frames), ?_, rfl⟩
    exact all.trans (Machine.grows_restore last m.environment.current)
  obtain ⟨same, kept⟩ := inner
  cases result : plain { m with environment := m.environment.graft chain } with
  | ok a last =>
      rw [result] at same kept
      constructor
      · simp only [Exec.within, same, result]
      · simp only [Exec.within, result]
        exact ⟨back last kept.1, stable a last _ kept.2⟩
  | error stop last =>
      rw [result] at same kept
      constructor
      · simp only [Exec.within, same, result]
      · simp only [Exec.within, result]
        exact ⟨back last kept.1, kept.2⟩

theorem deeper (stable : ∀ a last depth, good last a → good { last with depth := depth } a)
    (inner : Keeps known bindings { m with depth := m.depth + 1 } guarded plain good) :
    Keeps known bindings m (Exec.deeper guarded) (Exec.deeper plain) good := by
  have back (last : Machine)
      (steps : Machine.Steps known bindings { m with depth := m.depth + 1 } last) :
      m.Steps known bindings { last with depth := last.depth - 1 } :=
    ⟨⟨steps.sound.current, steps.sound.root, steps.sound.cells, steps.sound.globals,
      steps.sound.members, steps.sound.fields⟩,
      ⟨steps.grows.size, steps.grows.functions, steps.grows.frames, steps.grows.slots⟩,
      steps.current⟩
  obtain ⟨same, kept⟩ := inner
  cases result : plain { m with depth := m.depth + 1 } with
  | ok a last =>
      rw [result] at same kept
      constructor
      · simp only [Exec.deeper, same, result]
      · simp only [Exec.deeper, result]
        exact ⟨back last kept.1, stable a last _ kept.2⟩
  | error stop last =>
      rw [result] at same kept
      constructor
      · simp only [Exec.deeper, same, result]
      · simp only [Exec.deeper, result]
        exact ⟨back last kept.1, kept.2⟩

end Keeps

namespace Machine

def BacksFlow (known : Site → Prop) (bindings : Bindings) (m : Machine) (flow : Flow) : Prop :=
  ∀ value, flow = .returned value → m.Backs known bindings value

theorem backsFlow_normal : m.BacksFlow known bindings .normal :=
  fun _ impossible => nomatch impossible

/-- A machine on which the code of a place can go on. -/
structure Ready (known : Site → Prop) (bindings : Bindings) (path : Path) (m : Machine) : Prop where
  sound : m.Sound known bindings
  covers : m.environment.Covers bindings path m.environment.current

theorem Ready.steps (ready : m.Ready known bindings path) (steps : m.Steps known bindings after) :
    after.Ready known bindings path := by
  refine ⟨steps.sound, ?_⟩
  rw [steps.current]
  exact ready.covers.grow steps.grows

end Machine

/-- After a statement that goes on, its declarations are in sight; one that returns yields a value that
may be used. -/
structure Machine.Onward (known : Site → Prop) (bindings : Bindings) (path : Path) (m : Machine)
    (flow : Flow) : Prop where
  covers : flow = .normal → m.environment.Covers bindings path m.environment.current
  backs : m.BacksFlow known bindings flow

theorem Machine.Ready.onward (ready : m.Ready known bindings path)
    (holds : path.holdsStatements = true) {s : Stmt} (declared : s.declared = [])
    {flow : Flow} (backs : m.BacksFlow known bindings flow) :
    m.Onward known bindings (path.past s) flow :=
  ⟨fun _ => ready.covers.past_nil holds declared, backs⟩

theorem Machine.Ready.onward_past (ready : m.Ready known bindings path)
    (holds : path.holdsStatements = true) {s : Stmt} {id : NodeId} {own : Token}
    (declared : s.declared = [⟨id, own.lexeme, false⟩])
    (bound : Site.Bound bindings ⟨path, .declaration id own⟩)
    (held : ∀ slot, bindings.slot? id = some slot →
      m.environment.Holds m.environment.current slot) :
    m.Onward known bindings (path.past s) .normal := by
  refine ⟨fun _ => ready.covers.past holds declared fun isLocal => ?_, backsFlow_normal⟩
  have declares : (bindings.slot? id).isSome = path.isLocal := bound
  rw [isLocal] at declares
  obtain ⟨slot, slotOf⟩ := Option.isSome_iff_exists.mp declares
  exact ⟨slot, slotOf, held slot slotOf⟩

/-- One round of a loop, and how it goes on. -/
def roundThen {σ : Type} (test : EStateM Stop σ Bool) (round again : EStateM Stop σ Flow) :
    EStateM Stop σ Flow := do
  if ← test then
    match ← round with
    | .normal => again
    | .returned value => return .returned value
  else
    return .normal

theorem Exec.repeatWhile_succ (test : Exec Bool) (round : Exec Flow) (rounds : Nat) :
    Exec.repeatWhile test round (rounds + 1) =
      roundThen test round (Exec.repeatWhile test round rounds) := by
  funext m
  unfold roundThen
  cases tested : test m with
  | error stop middle =>
      rw [Outcome.bind_of_error tested]
      simp only [Exec.repeatWhile, tested]
  | ok holds middle =>
      rw [Outcome.bind_of_ok tested]
      cases holds with
      | false => simp only [Exec.repeatWhile, tested]; rfl
      | true =>
          simp only [Exec.repeatWhile, tested, if_true]
          cases ran : round middle with
          | error stop last => rw [Outcome.bind_of_error ran]
          | ok flow last =>
              rw [Outcome.bind_of_ok ran]
              cases flow <;> rfl

theorem Keeps.repeatWhile {test plainTest : Exec Bool} {round plainRound : Exec Flow}
    (tests : ∀ after, m.Steps known bindings after →
      Keeps known bindings after test plainTest fun _ _ => True)
    (runs : ∀ after, m.Steps known bindings after → Keeps known bindings after round plainRound
      fun last flow => last.BacksFlow known bindings flow) :
    ∀ (rounds : Nat) (after : Machine), m.Steps known bindings after →
      Keeps known bindings after (Exec.repeatWhile test round rounds)
        (Exec.repeatWhile plainTest plainRound rounds)
        fun last flow => last.BacksFlow known bindings flow
  | 0, after, steps => ⟨rfl, Machine.Steps.refl steps.sound, blamed_of_other nofun⟩
  | rounds + 1, after, steps => by
      rw [Exec.repeatWhile_succ, Exec.repeatWhile_succ]
      refine (tests after steps).bind fun holds middle tested _ => ?_
      cases holds with
      | false => exact Keeps.pure tested.sound Machine.backsFlow_normal
      | true =>
          have there := steps.trans tested
          refine (runs middle there).bind fun flow last ran backs => ?_
          cases flow with
          | normal => exact Keeps.repeatWhile tests runs rounds last (there.trans ran)
          | returned value => exact Keeps.pure ran.sound backs

end Lox
