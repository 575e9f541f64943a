import Lox.Proofs.Derivation.Program

set_option autoImplicit false

/-! Longer rows of tokens. What a statement accepts, it accepts as well if more tokens follow, unless
these begin with `else`; an expression does so only if it leaves tokens over, since it would go on with
operators that follow it. -/

namespace Lox.Grammar

/-- A place with more tokens behind those that are still to be read. -/
def Place.before (place : Place) (more : List Token) : Place :=
  ⟨place.tokens ++ more, place.nextId⟩

/-- Tokens that no statement before them goes on with. -/
class Apart (more : List Token) : Prop where
  noElse : more.head?.bind Token.terminal? ≠ some (.keyword .elseWord)

/-- A rule that never succeeds at the end of the input. -/
class Refuses {α : Type} (rule : Rule α) : Prop where
  refuses : ∀ {c : Cursor}, c.stop.isEnd = true → c.pending = [] →
    ∀ (a : α) (after : Cursor), rule c ≠ .ok a after

/-- What `rule` accepts, `longer` accepts if more tokens follow. A rule that is not closed has to leave
tokens over. -/
class Persists (more : List Token) (closed : Bool) {α : Type} (rule longer : Rule α) : Prop where
  grows : Grows rule
  stays : ∀ {stop : Token} {p : Place} {a : α} {q : Place}, Accepts stop rule p a q →
    p.tokens = [] → q.tokens = []
  longer : ∀ {stop : Token} {p : Place} {a : α} {q : Place}, stop.isEnd = true →
    Accepts stop rule p a q → (closed = false → q.tokens ≠ []) → ∀ stop' : Token, Accepts stop' longer (p.before more) a (q.before more)

section

variable {more : List Token} {closed : Bool} {α β σ : Type}

namespace Refuses

variable {x y : Rule α} {f : α → Rule β}

instance fail (fault : SyntaxFault) : Refuses (Rule.fail (α := α) fault) :=
  ⟨nofun⟩

instance bind [refused : Refuses x] : Refuses (x >>= f) := by
  constructor
  intro c ends none b after done
  obtain ⟨a, middle, first, -⟩ := Outcome.ok_of_bind done
  exact refused.refuses ends none a middle first

instance of_pure (a : α) [refused : Refuses (f a)] : Refuses (Pure.pure a >>= f) := by
  rw [pure_bind]
  exact refused

instance fmap [Refuses x] (g : α → β) : Refuses (g <$> x) := by
  rw [← bind_pure_comp]
  infer_instance

instance ite {condition : Prop} [Decidable condition] [one : Refuses x] [two : Refuses y] :
    Refuses (if condition then x else y) := by
  split
  · exact one
  · exact two

theorem check_bind (terminal : Terminal) {f : Bool → Rule β} (refused : Refuses (f false)) :
    Refuses (Rule.check terminal >>= f) := by
  constructor
  intro c ends none b after done
  have other : Rule.check terminal c = .ok false c := by
    unfold Rule.check
    rw [none]
    rfl
  rw [Outcome.bind_of_ok other] at done
  exact refused.refuses ends none b after done

/-- At the end of the input no terminal is found. -/
instance check_ite (terminal : Terminal) [refused : Refuses y] :
    Refuses (do if ← Rule.check terminal then x else y) :=
  check_bind terminal refused

instance accept_ite (terminal : Terminal) [refused : Refuses y] :
    Refuses (do if ← Rule.accept terminal then x else y) := by
  unfold Rule.accept
  rw [bind_assoc]
  exact check_bind terminal refused

theorem look_ahead {first second : Terminal} {f : Bool → Bool → Rule β}
    (refused : Refuses (f false false)) :
    Refuses (do
      let one ← Rule.check first
      let two ← Rule.checkSecond second
      f one two) := by
  refine check_bind first ⟨?_⟩
  intro c ends none b after done
  have other : Rule.checkSecond second c = .ok false c := by
    unfold Rule.checkSecond
    rw [none]
    rfl
  rw [Outcome.bind_of_ok other] at done
  exact refused.refuses ends none b after done

instance advance_bind {f : Unit → Rule β} [refused : Refuses (f ())] :
    Refuses (Rule.advance >>= f) := by
  constructor
  intro c ends none b after done
  refine refused.refuses (c := { c with pending := c.pending.tail }) ends ?_ b after done
  rw [none]
  rfl

instance expect (terminal : Terminal) (fault : SyntaxFault) :
    Refuses (Rule.expect terminal fault) := by
  unfold Rule.expect
  infer_instance

end Refuses

namespace Persists

variable {x x' y y' : Rule α} {f f' : α → Rule β}

theorem weaken [persists : Persists more true x x'] : Persists more closed x x' :=
  ⟨persists.grows, persists.stays, fun ends done _ => persists.longer ends done nofun⟩

instance pure (a : α) : Persists more closed (Pure.pure a : Rule α) (Pure.pure a) := by
  refine ⟨inferInstance, ?_, ?_⟩
  · intro stop p b q done none
    obtain ⟨-, rfl⟩ := Accepts.pure_iff.mp done
    exact none
  · intro stop p b q _ done _ stop'
    obtain ⟨rfl, rfl⟩ := Accepts.pure_iff.mp done
    exact Accepts.pure_iff.mpr ⟨rfl, rfl⟩

instance fail (fault : SyntaxFault) :
    Persists more closed (Rule.fail (α := α) fault) (Rule.fail fault) :=
  ⟨inferInstance, nofun, nofun⟩

instance failAt (fault : SyntaxFault) (token : Token) :
    Persists more closed (Rule.failAt (α := α) fault token) (Rule.failAt fault token) :=
  ⟨inferInstance, nofun, nofun⟩

instance exhausted (longer : Rule α) : Persists more closed (throw .exhausted : Rule α) longer :=
  ⟨inferInstance, nofun, nofun⟩

instance fresh : Persists more closed Rule.fresh Rule.fresh := by
  refine ⟨inferInstance, ?_, ?_⟩
  · intro stop p id q done none
    rw [(Accepts.fresh_iff.mp done).tokens, none]
  · intro stop p id q _ done _ stop'
    obtain ⟨rfl, rfl⟩ := Accepts.fresh_iff.mp done
    exact Accepts.fresh_iff.mpr ⟨rfl, rfl⟩

instance expect (terminal : Terminal) (fault : SyntaxFault) :
    Persists more closed (Rule.expect terminal fault) (Rule.expect terminal fault) := by
  refine ⟨inferInstance, ?_, ?_⟩
  · intro stop p token q done none
    obtain ⟨-, rfl⟩ := Accepts.expect_iff.mp done
    cases none
  · intro stop p token q _ done _ stop'
    obtain ⟨found, rfl⟩ := Accepts.expect_iff.mp done
    exact Accepts.expect_iff.mpr ⟨found, rfl⟩

/-- A rule that does nothing but look at the tokens. -/
theorem of_looks {rule : Rule α} [Grows rule] (see : Token → List Token → α)
    (looks : ∀ c : Cursor, rule c = .ok (see c.stop c.pending) c)
    (same : ∀ stop stop' t rest, see stop' (t :: rest ++ more) = see stop (t :: rest)) :
    Persists more false rule rule := by
  have accepted {stop : Token} {p : Place} {a : α} {q : Place} (done : Accepts stop rule p a q) :
      a = see stop p.tokens ∧ q = p := by
    unfold Accepts at done
    rw [looks] at done
    injection done with results cursors
    exact ⟨results.symm, Place.cursor_inj stop cursors.symm⟩
  refine ⟨inferInstance, ?_, ?_⟩
  · intro stop p a q done none
    obtain ⟨-, rfl⟩ := accepted done
    exact none
  · intro stop p a q _ done some stop'
    obtain ⟨rfl, rfl⟩ := accepted done
    obtain ⟨tokens, nextId⟩ := q
    cases tokens with
    | nil => exact absurd rfl (some rfl)
    | cons t rest =>
      refine (looks _).trans ?_
      exact congrArg (EStateM.Result.ok · _) (same stop stop' t rest)

instance peek : Persists more false Rule.peek Rule.peek :=
  of_looks (fun stop tokens => tokens.headD stop) (fun _ => rfl) fun _ _ _ _ => rfl

instance atEnd : Persists more false Rule.atEnd Rule.atEnd :=
  of_looks (fun _ tokens => tokens.isEmpty) (fun _ => rfl) fun _ _ _ _ => rfl

instance check (terminal : Terminal) :
    Persists more false (Rule.check terminal) (Rule.check terminal) :=
  of_looks (fun _ tokens => tokens.head?.bind Token.terminal? == some terminal)
    (fun _ => rfl) fun _ _ _ _ => rfl

instance advance : Persists more false Rule.advance Rule.advance := by
  have accepted {stop : Token} {p : Place} {q : Place} (done : Accepts stop Rule.advance p () q) :
      q = ⟨p.tokens.tail, p.nextId⟩ := by
    injection done with _ cursors
    exact Place.cursor_inj stop cursors.symm
  refine ⟨inferInstance, ?_, ?_⟩
  · intro stop p a q done none
    rw [accepted done, none]
    rfl
  · intro stop p a q _ done some stop'
    cases accepted done
    obtain ⟨tokens, nextId⟩ := p
    cases tokens with
    | nil => exact absurd rfl (some rfl)
    | cons t rest => rfl

theorem bind_of {before : Bool} (one : Persists more before x x')
    (two : ∀ a, Persists more closed (f a) (f' a))
    (left : before = false → closed = false ∨ ∀ a, Refuses (f a)) :
    Persists more closed (x >>= f) (x' >>= f') := by
  have := one.grows
  have grows (a : α) := (two a).grows
  refine ⟨inferInstance, ?_, ?_⟩
  · intro stop p b r done none
    obtain ⟨a, q, first, later⟩ := Accepts.bind_iff.mp done
    exact (two a).stays later (one.stays first none)
  · intro stop p b r ends done some stop'
    obtain ⟨a, q, first, later⟩ := Accepts.bind_iff.mp done
    have remains (isOpen : before = false) : q.tokens ≠ [] := by
      intro none
      rcases left isOpen with same | refused
      · exact some same ((two a).stays later none)
      · exact (refused a).refuses ends none b _ later
    exact (Outcome.bind_of_ok (one.longer ends first remains stop')).trans
      ((two a).longer ends later some stop')

instance bind [one : Persists more closed x x'] [two : ∀ a, Persists more closed (f a) (f' a)] :
    Persists more closed (x >>= f) (x' >>= f') :=
  bind_of one two .inl

theorem seq [Persists more closed x x'] (two : ∀ a, Persists more closed (f a) (f' a)) :
    Persists more closed (x >>= f) (x' >>= f') :=
  bind

/-- What follows cannot be at the end of the input. -/
instance bind_open [one : Persists more false x x'] [two : ∀ a, Persists more closed (f a) (f' a)]
    [refused : ∀ a, Refuses (f a)] : Persists more closed (x >>= f) (x' >>= f') :=
  bind_of one two fun _ => .inr refused

theorem seq_open [Persists more false x x'] (two : ∀ a, Persists more closed (f a) (f' a))
    (refused : ∀ a, Refuses (f a)) : Persists more closed (x >>= f) (x' >>= f') :=
  bind_open

instance fmap [one : Persists more closed x x'] (g : α → β) :
    Persists more closed (g <$> x) (g <$> x') := by
  rw [← bind_pure_comp, ← bind_pure_comp]
  infer_instance

instance ite {condition : Prop} [Decidable condition] [one : Persists more closed x x']
    [two : Persists more closed y y'] :
    Persists more closed (if condition then x else y) (if condition then x' else y') := by
  split
  · exact one
  · exact two

instance accept (terminal : Terminal) :
    Persists more false (Rule.accept terminal) (Rule.accept terminal) := by
  unfold Rule.accept
  infer_instance

/-- An `else` that is missing is missing as well if more tokens follow. -/
instance accept_else [apart : Apart more] :
    Persists more true (Rule.accept (.keyword .elseWord)) (Rule.accept (.keyword .elseWord)) := by
  have accepted {stop : Token} {p : Place} {b : Bool} {q : Place} :
      Accepts stop (Rule.accept (.keyword .elseWord)) p b q ↔
        (∃ token, Derives.Passes (.keyword .elseWord) p token q ∧ b = true) ∨
          (¬p.Sees (.keyword .elseWord) ∧ b = false ∧ q = p) := by
    rw [← bind_pure (Rule.accept _), Accepts.accept_iff]
    constructor
    · rintro (⟨token, r, passes, done⟩ | ⟨other, done⟩)
      · obtain ⟨rfl, rfl⟩ := Accepts.pure_iff.mp done
        exact .inl ⟨token, passes, rfl⟩
      · exact .inr ⟨other, Accepts.pure_iff.mp done⟩
    · rintro (⟨token, passes, rfl⟩ | ⟨other, rfl, rfl⟩)
      · exact .inl ⟨token, q, passes, Accepts.pure_iff.mpr ⟨rfl, rfl⟩⟩
      · exact .inr ⟨other, Accepts.pure_iff.mpr ⟨rfl, rfl⟩⟩
  refine ⟨inferInstance, ?_, ?_⟩
  · intro stop p b q done none
    rcases accepted.mp done with ⟨token, ⟨-, rfl⟩, -⟩ | ⟨-, -, rfl⟩
    · cases none
    · exact none
  · intro stop p b q _ done _ stop'
    rcases accepted.mp done with ⟨token, ⟨found, rfl⟩, rfl⟩ | ⟨other, rfl, rfl⟩
    · exact accepted.mpr (.inl ⟨token, ⟨found, rfl⟩, rfl⟩)
    · refine accepted.mpr (.inr ⟨?_, rfl, rfl⟩)
      obtain ⟨tokens, nextId⟩ := q
      cases tokens with
      | nil => exact apart.noElse
      | cons t rest => exact other

/-- The second token is looked at only if the first is the one that is wanted. -/
theorem look_ahead {first second : Terminal} {f f' : Bool → Bool → Rule α}
    (two : ∀ b c, Persists more closed (f b c) (f' b c)) (other : ∀ c, f' false c = f' false false)
    (lone : ∀ {stop token : Token} {id : NodeId} {a : α} {q : Place}, stop.isEnd = true →
      token.terminal? = some first → ¬Accepts stop (f true false) ⟨[token], id⟩ a q)
    (left : closed = false ∨ Refuses (f false false)) :
    Persists more closed
      (do
        let one ← Rule.check first
        let two ← Rule.checkSecond second
        f one two)
      (do
        let one ← Rule.check first
        let two ← Rule.checkSecond second
        f' one two) := by
  have grows (b c : Bool) := (two b c).grows
  have : ∀ b, Grows (do
      let two ← Rule.checkSecond second
      f b two) := inferInstance
  refine ⟨inferInstance, ?_, ?_⟩
  · intro stop p a q done none
    exact (two _ _).stays (Accepts.lookAhead_iff.mp done) none
  · intro stop p a q ends done some stop'
    have looked := Accepts.lookAhead_iff.mp done
    have longer := (two _ _).longer ends looked some stop'
    refine Accepts.lookAhead_iff.mpr ?_
    obtain ⟨tokens, nextId⟩ := p
    match tokens with
    | [] =>
      exfalso
      rcases left with isOpen | refused
      · exact some isOpen ((two _ _).stays looked rfl)
      · exact refused.refuses ends rfl a _ looked
    | [token] =>
      by_cases sees : Place.Sees ⟨[token], nextId⟩ first
      · rw [decide_eq_true sees] at looked
        exact absurd looked (lone ends sees)
      · have still : ¬Place.Sees (Place.before ⟨[token], nextId⟩ more) first := sees
        rw [decide_eq_false sees] at longer
        rw [decide_eq_false still, other]
        exact longer
    | token :: next :: rest => exact longer

instance recover [one : Persists more closed x x'] :
    Persists more closed (Grammar.recover x) (Grammar.recover x') := by
  have := one.grows
  refine ⟨inferInstance, ?_, ?_⟩
  · intro stop p found q done none
    obtain ⟨a, -, first⟩ := Accepts.recover_iff.mp done
    exact one.stays first none
  · intro stop p found q ends done some stop'
    obtain ⟨a, rfl, first⟩ := Accepts.recover_iff.mp done
    exact Accepts.recover_iff.mpr ⟨a, rfl, one.longer ends first some stop'⟩

variable (more) in
/-- Repeating, with at least as many rounds. -/
theorem iterate {round round' : σ → Rule (Rule.Round σ α)} [∀ state, Grows (round' state)]
    (each : ∀ state, Persists more false (round state) (round' state)) :
    ∀ {bound bound' : Nat}, bound ≤ bound' → ∀ state : σ,
      Persists more false (Rule.iterate round bound state) (Rule.iterate round' bound' state)
  | 0, _, _, _ => exhausted _
  | bound + 1, bound' + 1, le, state => by
      have grows (state : σ) := (each state).grows
      have further := iterate each (Nat.le_of_succ_le_succ le)
      refine ⟨inferInstance, ?_, ?_⟩
      · intro stop p a r done none
        rcases Accepts.iterate_iff.mp done with ⟨next, q, first, later⟩ | last
        · exact (further next).stays later ((each state).stays first none)
        · exact (each state).stays last none
      · intro stop p a r ends done some stop'
        rcases Accepts.iterate_iff.mp done with ⟨next, q, first, later⟩ | last
        · have remains (_ : false = false) : q.tokens ≠ [] := fun none =>
            some rfl ((further next).stays later none)
          exact Accepts.iterate_iff.mpr (.inl ⟨next, q.before more,
            (each state).longer ends first remains stop',
              (further next).longer ends later some stop'⟩)
        · exact Accepts.iterate_iff.mpr (.inr ((each state).longer ends last some stop'))

end Persists
end

end Lox.Grammar
