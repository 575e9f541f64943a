import Lox.Proofs.Depth.Agreement

set_option autoImplicit false

/-! Sinks with a limit beside sinks without. As long as a text fits, both take it; the first that does not
fit is taken up to the limit, and writing it fails. Whatever does not write looks at no sink at all. -/

namespace Lox

namespace Sink

variable {sink after : Sink} {text : String} {most : Nat}

/-- What a sink that takes everything has accepted so far is no more than so many bytes. -/
structure Fits (most : Nat) (sink : Sink) : Prop extends Unfailing sink where
  size : sink.accepted.size ≤ most

/-- A sink that takes everything has accepted more than so many bytes. -/
structure Exceeds (most : Nat) (sink : Sink) : Prop extends Unfailing sink where
  size : most < sink.accepted.size

/-- A sink with a limit, and with as much of what another one has accepted as it would have taken. -/
def capped (sink : Sink) (most : Nat) : Sink :=
  ⟨sink.accepted.extract 0 most, some most, sink.flushFails⟩

/-- The first so many bytes are all bytes if there are not so many. -/
theorem extract_of_size_le {bytes : ByteArray} (short : bytes.size ≤ most) :
    bytes.extract 0 most = bytes := by
  have whole := ByteArray.extract_zero_max_size (a := bytes) (i := most)
  rwa [Nat.max_eq_left short] at whole

theorem extract_min_size (bytes : ByteArray) (most : Nat) :
    bytes.extract 0 most = bytes.extract 0 (min most bytes.size) := by
  rcases Nat.le_total most bytes.size with long | short
  · rw [Nat.min_eq_left long]
  · rw [Nat.min_eq_right short, extract_of_size_le short, ByteArray.extract_zero_size]

theorem accept_eq_append (sink : Sink) (text : String) :
    ∃ bytes, sink.accept text = { sink with accepted := sink.accepted ++ bytes } := by
  unfold Sink.accept
  cases sink.room? <;> exact ⟨_, rfl⟩

theorem fits_or_exceeds (unfailing : sink.Unfailing) (most : Nat) :
    sink.Fits most ∨ sink.Exceeds most :=
  (Nat.lt_or_ge most sink.accepted.size).symm.imp (⟨unfailing, ·⟩) (⟨unfailing, ·⟩)

namespace Unfailing

theorem room? (unfailing : sink.Unfailing) : sink.room? = none := by
  unfold Sink.room?
  rw [unfailing.limit]
  rfl

theorem accept_eq (unfailing : sink.Unfailing) (text : String) :
    sink.accept text = { sink with accepted := sink.accepted ++ text.toUTF8 } := by
  unfold Sink.accept
  rw [unfailing.room?]

theorem accept (unfailing : sink.Unfailing) (text : String) : (sink.accept text).Unfailing := by
  rw [unfailing.accept_eq]
  exact ⟨unfailing.limit, unfailing.flushFails⟩

theorem failure? (unfailing : sink.Unfailing) (text : String) : sink.failure? text = none := by
  unfold Sink.failure?
  rw [unfailing.room?]

theorem flushFailure? (unfailing : sink.Unfailing) : sink.flushFailure? = none := by
  unfold Sink.flushFailure?
  rw [unfailing.flushFails]
  rfl

theorem deliveryFailure? (unfailing : sink.Unfailing) (text : String) :
    sink.deliveryFailure? text = none := by
  unfold Sink.deliveryFailure?
  rw [unfailing.failure?]
  exact unfailing.flushFailure?

end Unfailing

theorem flushFailure?_capped (sink : Sink) (most : Nat) :
    (sink.capped most).flushFailure? = sink.flushFailure? :=
  rfl

namespace Fits

theorem extract (fits : sink.Fits most) : sink.accepted.extract 0 most = sink.accepted :=
  extract_of_size_le fits.size

theorem room?_capped (fits : sink.Fits most) :
    (sink.capped most).room? = some (most - sink.accepted.size) := by
  unfold Sink.room? capped
  rw [fits.extract]
  rfl

/-- A sink that is not full takes of a text what the other one keeps of it under the limit. -/
theorem accept_capped (fits : sink.Fits most) (text : String) :
    (sink.capped most).accept text = (sink.accept text).capped most := by
  rw [fits.accept_eq]
  unfold Sink.accept
  rw [fits.room?_capped]
  unfold capped
  dsimp only
  rw [ByteArray.extract_append, Nat.zero_sub]

theorem size_accept (fits : sink.Fits most) (text : String) :
    (sink.accept text).accepted.size = sink.accepted.size + text.utf8ByteSize := by
  rw [fits.accept_eq]
  exact ByteArray.size_append

theorem failure?_of_fits (fits : sink.Fits most) (still : (sink.accept text).Fits most) :
    (sink.capped most).failure? text = none := by
  have size := still.size
  rw [fits.size_accept] at size
  unfold Sink.failure?
  rw [fits.room?_capped]
  exact if_pos (by omega)

theorem failure?_of_exceeds (fits : sink.Fits most) (exceeds : (sink.accept text).Exceeds most) :
    (sink.capped most).failure? text = some .full := by
  have before := fits.size
  have size := exceeds.size
  rw [fits.size_accept] at size
  unfold Sink.failure?
  rw [fits.room?_capped]
  exact if_neg (by omega)

end Fits

namespace Exceeds

/-- What comes after the limit does not change the first bytes. -/
theorem extract_of_begins (exceeds : sink.Exceeds most) (begins : sink.Begins after) :
    after.accepted.extract 0 most = sink.accepted.extract 0 most := by
  obtain ⟨bytes, same⟩ := begins
  have larger := exceeds.size
  have cut : bytes.extract 0 (most - sink.accepted.size) = ByteArray.empty :=
    ByteArray.extract_eq_empty_iff.mpr (by omega)
  rw [same, ByteArray.extract_append, Nat.zero_sub, cut, ByteArray.append_empty]

theorem size_of_begins (exceeds : sink.Exceeds most) (begins : sink.Begins after) :
    most < after.accepted.size := by
  obtain ⟨bytes, same⟩ := begins
  have larger := exceeds.size
  rw [same, ByteArray.size_append]
  omega

end Exceeds
end Sink

/-! ### What does not write -/

/-- The machine as it would be if its output had a limit. -/
def Machine.capped (m : Machine) (most : Nat) : Machine :=
  { m with output := m.output.capped most }

namespace Exec

variable {α : Type} {x : Exec α}

/-- Neither looks at the output nor writes to it. -/
def Blind (x : Exec α) : Prop :=
  ∀ (m : Machine) (sink : Sink), x { m with output := sink } =
    Outcome.onState (fun last => { last with output := sink }) (x m)

namespace Blind

theorem silent (blind : Blind x) (m : Machine) : (Outcome.state (x m)).output = m.output := by
  have same := congrArg (fun result => (Outcome.state result).output) (blind m m.output)
  rwa [Outcome.state_onState] at same

theorem capped (blind : Blind x) (m : Machine) (most : Nat) :
    x (m.capped most) = Outcome.onState (·.capped most) (x m) := by
  have silent := blind.silent m
  refine (blind m (m.output.capped most)).trans ?_
  cases result : x m with
  | ok a last =>
      rw [result] at silent
      rw [← silent]
      rfl
  | error stop last =>
      rw [result] at silent
      rw [← silent]
      rfl

end Blind

theorem blind_fail (fault : RuntimeFault) (token : Token) : Blind (fail fault token : Exec α) :=
  fun _ _ => rfl

theorem blind_ofOperator (token : Token) (result : Except RuntimeFault Value) :
    Blind (ofOperator token result) := by
  cases result <;> exact fun _ _ => rfl

theorem blind_receiver (object : Value) (name : Token) : Blind (receiver object name) := by
  cases object <;> exact fun _ _ => rfl

theorem blind_checkArity (expected found : Nat) (paren : Token) :
    Blind (checkArity expected found paren) := by
  unfold checkArity
  split <;> exact fun _ _ => rfl

theorem blind_declare (ctx : Context) (id : NodeId) (name : Token) (value : Value) :
    Blind (declare ctx id name value) := by
  intro m sink
  unfold declare
  cases ctx.bindings.slot? id <;> rfl

theorem blind_lookUp (ctx : Context) (id : NodeId) (name : Token) : Blind (lookUp ctx id name) := by
  intro m sink
  unfold lookUp
  dsimp only
  split <;> rfl

theorem blind_store (ctx : Context) (id : NodeId) (name : Token) (value : Value) :
    Blind (store ctx id name value) := by
  intro m sink
  unfold store
  cases ctx.bindings.slot? id with
  | some slot =>
      dsimp only
      split <;> rfl
  | none =>
      dsimp only
      split <;> rfl

theorem blind_getProperty (object : Value) (name : Token) : Blind (getProperty object name) := by
  have member (m : Machine) (sink : Sink) (id : InstanceId) :
      Machine.getProperty { m with output := sink } id name.lexeme =
        ((m.getProperty id name.lexeme).1,
          { (m.getProperty id name.lexeme).2 with output := sink }) := by
    have same : Machine.instanceAt { m with output := sink } id = m.instanceAt id := rfl
    have owner : Machine.classAt { m with output := sink } (m.instanceAt id).owner =
        m.classAt (m.instanceAt id).owner := rfl
    unfold Machine.getProperty
    dsimp only
    rw [same, owner]
    cases (m.instanceAt id).fields.get? name.lexeme with
    | some value => rfl
    | none =>
        dsimp only
        split <;> rfl
  cases object with
  | «instance» id =>
      intro m sink
      unfold getProperty
      dsimp only
      rw [member]
      cases m.getProperty id name.lexeme with
      | mk value after => cases value <;> rfl
  | _ => exact fun _ _ => rfl

theorem blind_addMethods (closure : Chain) (members : Table String Value)
    (decls : List FunctionDecl) : Blind (addMethods closure members decls) := by
  induction decls generalizing members with
  | nil => exact fun _ _ => rfl
  | cons method rest ih =>
      unfold addMethods
      cases method.name with
      | none => exact ih members
      | some name => exact fun m sink => ih _ (m.addFunction ⟨method, closure, none⟩).2 sink

/-! ### What writes -/

variable {m : Machine} {text : String}

theorem write_of_delivered (delivered : m.output.failure? text = none) :
    write text m = .ok () { m with output := m.output.accept text } := by
  unfold write
  rw [delivered]

theorem write_of_failed {failure : SinkFailure} (failed : m.output.failure? text = some failure) :
    write text m =
      .error (.error (.outputFailed failure)) { m with output := m.output.accept text } := by
  unfold write
  rw [failed]

end Exec
end Lox
