import Lox.Decimal.Double
import Lox.Decimal.Shortest
import Mathlib.Algebra.Order.Field.Power
import Mathlib.Algebra.Order.Field.Rat
import Mathlib.Tactic.Linarith
import Mathlib.Tactic.NormNum
import Mathlib.Tactic.Ring

set_option autoImplicit false

/-! What rounds to a double. The reals that round to one double begin where those that round to the one
before it end, and the point between the two rounds to only one of them, so no real rounds to two. -/

namespace Lox.Decimal

/-- A real lies among those of an interval, all in quarters of the last bit. -/
structure Interval.Contains (interval : Interval) (q : ℚ) : Prop where
  low : interval.lower ≤ q
  high : q ≤ interval.upper
  inside : interval.closed = false → interval.lower ≠ q ∧ q ≠ interval.upper

/-- A quarter of the last bit of a quantity. -/
def Dyadic.quarter (x : Dyadic) : ℚ :=
  2 ^ (x.exponent - 2)

theorem Dyadic.quarter_pos (x : Dyadic) : 0 < x.quarter :=
  zpow_pos (by norm_num) _

/-- A real rounds to a quantity. -/
def Rounds (q : ℚ) (x : Dyadic) : Prop :=
  (intervalOf x).Contains (q / x.quarter)

/-! ### Ends of intervals -/

/-- Where the reals begin that round to the double of a code. -/
def lowerEnd (code : Nat) : ℚ :=
  (intervalOf (magnitudeOfCode code)).lower * (magnitudeOfCode code).quarter

/-- Where the reals end that round to the double of a code. -/
def upperEnd (code : Nat) : ℚ :=
  (intervalOf (magnitudeOfCode code)).upper * (magnitudeOfCode code).quarter

theorem lowerEnd_lt_upperEnd (code : Nat) : lowerEnd code < upperEnd code := by
  refine mul_lt_mul_of_pos_right ?_ (Dyadic.quarter_pos _)
  simp only [intervalOf, Nat.cast_lt]
  omega

theorem hiddenBit_eq : hiddenBit = 4503599627370496 := by
  decide +kernel

/-- The code after another one is in the same row of codes, or begins the next row. -/
theorem succ_cases (code : Nat) :
    ((code + 1) / hiddenBit = code / hiddenBit ∧ (code + 1) % hiddenBit = code % hiddenBit + 1) ∨
      ((code + 1) / hiddenBit = code / hiddenBit + 1 ∧ (code + 1) % hiddenBit = 0 ∧
        code % hiddenBit + 1 = hiddenBit) := by
  rw [hiddenBit_eq]
  omega

theorem magnitudeOfCode_least {code : Nat} (row : code / hiddenBit = 0) :
    magnitudeOfCode code = ⟨code % hiddenBit, leastExponent⟩ := by
  simp only [magnitudeOfCode, row, if_true]

theorem magnitudeOfCode_row {code row : Nat} (inRow : code / hiddenBit = row + 1) :
    magnitudeOfCode code = ⟨hiddenBit + code % hiddenBit, leastExponent + row⟩ := by
  simp [magnitudeOfCode, inRow]

theorem lower_wide {x : Dyadic} (wide : ¬(x.significand = hiddenBit ∧ leastExponent < x.exponent)) :
    (intervalOf x).lower = 4 * x.significand - 2 := by
  simp only [intervalOf, if_neg wide]

theorem lower_narrow {x : Dyadic} (narrow : x.significand = hiddenBit ∧ leastExponent < x.exponent) :
    (intervalOf x).lower = 4 * x.significand - 1 := by
  simp only [intervalOf, if_pos narrow]

theorem upper_intervalOf (x : Dyadic) : (intervalOf x).upper = 4 * x.significand + 2 := rfl

theorem end_congr {one two : Nat} {x y : Dyadic} (ends : one = two) (exponents : x.exponent = y.exponent) :
    (one : ℚ) * x.quarter = two * y.quarter := by
  rw [Dyadic.quarter, Dyadic.quarter, ends, exponents]

/-- Where the exponent grows by one, the last bit is worth twice as much. -/
theorem end_double {one two : Nat} {x y : Dyadic} (ends : 2 * one = two)
    (exponents : x.exponent = y.exponent + 1) : (one : ℚ) * x.quarter = two * y.quarter := by
  have twice : x.quarter = 2 * y.quarter := by
    rw [Dyadic.quarter, Dyadic.quarter, exponents, ← zpow_one_add₀ (by norm_num)]
    congr 1
    ring
  rw [twice, ← ends, Nat.cast_mul]
  push_cast
  ring

/-- The reals that round to a double begin where those that round to the one before it end. -/
theorem lowerEnd_succ (code : Nat) : lowerEnd (code + 1) = upperEnd code := by
  have least : code % hiddenBit < hiddenBit := Nat.mod_lt _ (by decide +kernel)
  unfold lowerEnd upperEnd
  rw [upper_intervalOf]
  rcases succ_cases code with ⟨sameRow, next⟩ | ⟨nextRow, next, last⟩
  · cases row : code / hiddenBit with
    | zero =>
      rw [magnitudeOfCode_least row, magnitudeOfCode_least (sameRow.trans row), next,
        lower_wide (by dsimp only; omega)]
      exact end_congr (by dsimp only; omega) rfl
    | succ before =>
      rw [magnitudeOfCode_row row, magnitudeOfCode_row (sameRow.trans row), next,
        lower_wide (by dsimp only; omega)]
      exact end_congr (by dsimp only; omega) rfl
  · cases row : code / hiddenBit with
    | zero =>
      rw [magnitudeOfCode_least row, magnitudeOfCode_row (nextRow.trans (congrArg (· + 1) row)), next,
        lower_wide (by simp)]
      exact end_congr (by dsimp only; omega) (by simp)
    | succ before =>
      rw [magnitudeOfCode_row row, magnitudeOfCode_row (nextRow.trans (congrArg (· + 1) row)), next,
        lower_narrow (by simp)]
      exact end_double (by dsimp only; omega) (by push_cast; ring)

/-- The double of a code is even exactly when the code is. -/
theorem closed_intervalOf (code : Nat) :
    (intervalOf (magnitudeOfCode code)).closed = decide (code % 2 = 0) := by
  have bit : hiddenBit = 4503599627370496 := hiddenBit_eq
  cases row : code / hiddenBit with
  | zero =>
    rw [magnitudeOfCode_least row]
    simp only [intervalOf, decide_eq_decide]
    rw [bit] at row ⊢
    omega
  | succ before =>
    rw [magnitudeOfCode_row row]
    simp only [intervalOf, decide_eq_decide]
    rw [bit] at row ⊢
    omega

theorem upperEnd_strictMono : StrictMono upperEnd := by
  refine strictMono_nat_of_lt_succ fun code => ?_
  rw [← lowerEnd_succ]
  exact lowerEnd_lt_upperEnd (code + 1)

theorem ends_of_rounds {code : Nat} {q : ℚ} (rounds : Rounds q (magnitudeOfCode code)) :
    lowerEnd code ≤ q ∧ q ≤ upperEnd code ∧
      (code % 2 = 1 → lowerEnd code ≠ q ∧ q ≠ upperEnd code) := by
  have positive := (magnitudeOfCode code).quarter_pos
  refine ⟨(le_div_iff₀ positive).mp rounds.low, (div_le_iff₀ positive).mp rounds.high, fun odd => ?_⟩
  have inside := rounds.inside (by rw [closed_intervalOf]; simp [odd])
  unfold lowerEnd upperEnd
  rw [ne_eq, ← eq_div_iff positive.ne', ne_eq, ← div_eq_iff positive.ne']
  exact inside

theorem not_lt_of_rounds {one two : Nat} {q : ℚ} (first : Rounds q (magnitudeOfCode one))
    (second : Rounds q (magnitudeOfCode two)) : ¬one < two := by
  intro before
  obtain ⟨-, high, notHigh⟩ := ends_of_rounds first
  obtain ⟨low, -, notLow⟩ := ends_of_rounds second
  obtain ⟨last, rfl⟩ : ∃ last, two = last + 1 := ⟨two - 1, by omega⟩
  rw [lowerEnd_succ] at low notLow
  have rises : upperEnd one ≤ upperEnd last := upperEnd_strictMono.monotone (by omega)
  have same : upperEnd one = upperEnd last := le_antisymm rises (low.trans high)
  have neighbours := upperEnd_strictMono.injective same
  -- The point between two neighbours would have to round to an odd one.
  subst neighbours
  have between : upperEnd one = q := le_antisymm low high
  by_cases odd : one % 2 = 1
  · exact (notHigh odd).2 between.symm
  · exact (notLow (by omega)).1 between

/-- No real rounds to two doubles. -/
theorem code_eq_of_rounds {one two : Nat} {q : ℚ} (first : Rounds q (magnitudeOfCode one))
    (second : Rounds q (magnitudeOfCode two)) : one = two := by
  have notBefore := not_lt_of_rounds first second
  have notAfter := not_lt_of_rounds second first
  omega

end Lox.Decimal
