set_option autoImplicit false

/-! Computations that change a state and may fail, seen through their outcomes. Reading, resolving and
running are all of this form. -/

namespace Lox.Outcome

variable {ε σ α β : Type} {x : EStateM ε σ α} {f : α → EStateM ε σ β} {s t : σ}

/-- Whether a computation came to its end. -/
def succeeds : EStateM.Result ε σ α → Bool
  | .ok _ _ => true
  | .error _ _ => false

/-- What a computation yields, if it comes to its end. -/
def value? : EStateM.Result ε σ α → Option α
  | .ok a _ => some a
  | .error _ _ => none

/-- The state in which a computation ends, whether it fails or not. -/
def state : EStateM.Result ε σ α → σ
  | .ok _ t => t
  | .error _ t => t

theorem eq_ok_of_value? {result : EStateM.Result ε σ α} {a : α} (found : value? result = some a) :
    result = .ok a (state result) := by
  cases result with
  | ok b t =>
      cases found
      rfl
  | error e t => cases found

theorem eq_error_of_not_succeeds {result : EStateM.Result ε σ α} (failed : succeeds result = false) :
    ∃ e, result = .error e (state result) := by
  cases result with
  | ok b t => cases failed
  | error e t => exact ⟨e, rfl⟩

theorem bind_of_ok {a : α} (done : x s = .ok a t) : (x >>= f) s = f a t := by
  change EStateM.bind x f s = f a t
  rw [EStateM.bind, done]

theorem bind_of_error {e : ε} (failed : x s = .error e t) : (x >>= f) s = .error e t := by
  change EStateM.bind x f s = .error e t
  rw [EStateM.bind, failed]

theorem ok_of_bind {b : β} (done : (x >>= f) s = .ok b t) :
    ∃ a middle, x s = .ok a middle ∧ f a middle = .ok b t := by
  cases first : x s with
  | ok a middle => exact ⟨a, middle, rfl, (bind_of_ok first).symm.trans done⟩
  | error e middle =>
      rw [bind_of_error first] at done
      cases done

theorem error_of_bind {e : ε} (failed : (x >>= f) s = .error e t) :
    x s = .error e t ∨ ∃ a middle, x s = .ok a middle ∧ f a middle = .error e t := by
  cases first : x s with
  | ok a middle => exact .inr ⟨a, middle, rfl, (bind_of_ok first).symm.trans failed⟩
  | error stop middle =>
      rw [bind_of_error first] at failed
      cases failed
      exact .inl rfl

/-- A sequence depends on its first part only through that part's outcome. -/
theorem bind_congr {y : EStateM ε σ α} (same : x s = y s) : (x >>= f) s = (y >>= f) s := by
  cases result : y s with
  | ok a middle => rw [bind_of_ok result, bind_of_ok (same.trans result)]
  | error e middle => rw [bind_of_error result, bind_of_error (same.trans result)]

/-- A sequence depends on where its first part begins only through that part's outcome. -/
theorem bind_shift {y : EStateM ε σ α} (same : x s = y t) : (x >>= f) s = (y >>= f) t := by
  cases result : y t with
  | ok a middle => rw [bind_of_ok result, bind_of_ok (same.trans result)]
  | error e middle => rw [bind_of_error result, bind_of_error (same.trans result)]

theorem bind_congr_both {y : EStateM ε σ α} {g : α → EStateM ε σ β} (same : x s = y s)
    (later : ∀ a t, y s = .ok a t → f a t = g a t) : (x >>= f) s = (y >>= g) s := by
  cases done : y s with
  | ok a t => rw [bind_of_ok (same.trans done), bind_of_ok done, later a t done]
  | error e t => rw [bind_of_error (same.trans done), bind_of_error done]

end Lox.Outcome
