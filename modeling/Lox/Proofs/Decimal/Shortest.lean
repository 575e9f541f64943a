import Lox.Proofs.Decimal.Rounding
import Mathlib.Tactic.SplitIfs

set_option autoImplicit false

/-! The shortest decimal of a double rounds to it. Whatever a grid of decimals yields lies in the interval of
the reals that round to the double, and the last grid, the one of seventeen digits, is so fine that one of
the two neighbours lies there. -/

namespace Lox.Decimal

/-- The quantity of a decimal. -/
def Digits.value (d : Digits) : ℚ :=
  d.digits * 10 ^ d.scale

/-- The value of an interval lies inside. -/
structure Interval.Proper (interval : Interval) : Prop where
  low : interval.lower < interval.value
  high : interval.value < interval.upper

section Grid

variable {tie : Tie} {interval : Interval} {up down m : Nat}

/-- A point of a grid lies behind the lower end of an interval, both in the same unit. -/
def Interval.Begins (interval : Interval) (up down m : Nat) : Prop :=
  if interval.closed then interval.lower * up ≤ m * down else interval.lower * up < m * down

/-- A point of a grid lies before the upper end of an interval, both in the same unit. -/
def Interval.Ends (interval : Interval) (up down m : Nat) : Prop :=
  if interval.closed then m * down ≤ interval.upper * up else m * down < interval.upper * up

theorem Interval.begins_bounds (begins : interval.Begins up down m) : interval.lower * up ≤ m * down ∧
    (interval.closed = false → interval.lower * up ≠ m * down) := by
  unfold Interval.Begins at begins
  split at begins
  · next closed => exact ⟨begins, by simp [closed]⟩
  · exact ⟨begins.le, fun _ => begins.ne⟩

theorem Interval.ends_bounds (ends : interval.Ends up down m) : m * down ≤ interval.upper * up ∧
    (interval.closed = false → m * down ≠ interval.upper * up) := by
  unfold Interval.Ends at ends
  split at ends
  · next closed => exact ⟨ends, by simp [closed]⟩
  · exact ⟨ends.le, fun _ => ends.ne⟩

theorem Interval.begins_of_lt (above : interval.lower * up < m * down) : interval.Begins up down m := by
  unfold Interval.Begins
  split <;> omega

theorem Interval.ends_of_lt (below : m * down < interval.upper * up) : interval.Ends up down m := by
  unfold Interval.Ends
  split <;> omega

theorem Interval.contains_of_ends (positive : 0 < up) (begins : interval.Begins up down m)
    (ends : interval.Ends up down m) : interval.Contains ((m : ℚ) * down / up) := by
  have unit : (0 : ℚ) < up := by exact_mod_cast positive
  obtain ⟨low, notLow⟩ := Interval.begins_bounds begins
  obtain ⟨high, notHigh⟩ := Interval.ends_bounds ends
  constructor
  · rw [le_div_iff₀ unit]
    exact_mod_cast low
  · rw [div_le_iff₀ unit]
    exact_mod_cast high
  · intro isOpen
    rw [ne_eq, eq_div_iff unit.ne', ne_eq, div_eq_iff unit.ne']
    exact ⟨by exact_mod_cast notLow isOpen, by exact_mod_cast notHigh isOpen⟩

instance : Decidable (interval.Begins up down m) :=
  inferInstanceAs (Decidable (if interval.closed = true then interval.lower * up ≤ m * down
    else interval.lower * up < m * down))

instance : Decidable (interval.Ends up down m) :=
  inferInstanceAs (Decidable (if interval.closed = true then m * down ≤ interval.upper * up
    else m * down < interval.upper * up))

/-- One of two neighbours on a grid that both read back; `twice` tells on which side of the middle the
quantity lies. -/
def nearer (tie : Tie) (twice down below : Nat) : Nat :=
  if twice < down then below
  else if down < twice then below + 1
  else match tie with
    | .up => below + 1
    | .even => if below % 2 = 0 then below else below + 1

theorem nearer_cases (tie : Tie) (twice down below : Nat) :
    nearer tie twice down below = below ∨ nearer tie twice down below = below + 1 := by
  unfold nearer
  cases tie <;> dsimp only <;> split_ifs <;> simp

theorem onGrid_eq (tie : Tie) (interval : Interval) (up down : Nat) : onGrid tie interval up down =
    if interval.Begins up down (interval.value * up / down) then
      if interval.Ends up down (interval.value * up / down + 1) then
        some (nearer tie (2 * (interval.value * up % down)) down (interval.value * up / down))
      else some (interval.value * up / down)
    else if interval.Ends up down (interval.value * up / down + 1) then
      some (interval.value * up / down + 1)
    else none := by
  unfold onGrid nearer
  cases tie <;> simp only [apply_ite some] <;> rfl

/-- What a grid yields lies in the interval. -/
theorem onGrid_contains (proper : interval.Proper) (upPos : 0 < up) (downPos : 0 < down)
    (found : onGrid tie interval up down = some m) : interval.Contains ((m : ℚ) * down / up) := by
  have low := Nat.mul_lt_mul_of_pos_right proper.low upPos
  have high := Nat.mul_lt_mul_of_pos_right proper.high upPos
  have before := Nat.div_mul_le_self (interval.value * up) down
  have after := Nat.lt_mul_div_succ (interval.value * up) downPos
  rw [Nat.mul_comm down] at after
  rw [onGrid_eq] at found
  have belowEnds : interval.Ends up down (interval.value * up / down) :=
    Interval.ends_of_lt (by omega)
  have aboveBegins : interval.Begins up down (interval.value * up / down + 1) :=
    Interval.begins_of_lt (by omega)
  split at found
  · next begins =>
    split at found
    · next ends =>
      cases found
      rcases nearer_cases tie _ down (interval.value * up / down) with same | same <;> rw [same]
      · exact Interval.contains_of_ends upPos begins belowEnds
      · exact Interval.contains_of_ends upPos aboveBegins ends
    · cases found
      exact Interval.contains_of_ends upPos begins belowEnds
  · split at found
    · next ends =>
      cases found
      exact Interval.contains_of_ends upPos aboveBegins ends
    · cases found

/-- A grid that is finer than an interval has a point in it. -/
theorem onGrid_ne_none (fine : down + interval.lower * up < interval.upper * up) :
    onGrid tie interval up down ≠ none := by
  have next := Nat.add_one_mul (interval.value * up / down) down
  rw [onGrid_eq]
  by_cases above : interval.lower * up < interval.value * up / down * down
  · rw [if_pos (Interval.begins_of_lt above)]
    split <;> exact Option.some_ne_none _
  · have ends : interval.Ends up down (interval.value * up / down + 1) :=
      Interval.ends_of_lt (by omega)
    rw [if_pos ends, if_pos ends]
    split <;> exact Option.some_ne_none _

end Grid

/-! ### Units -/

/-- The power of a number, written as a quotient of powers with exponents that are not negative. -/
theorem zpow_eq_div {b : Nat} (some : b ≠ 0) (n : Int) :
    ((Nat.pow b n.toNat : Nat) : ℚ) / (Nat.pow b (-n).toNat : Nat) = b ^ n := by
  have nonzero : (b : ℚ) ≠ 0 := by exact_mod_cast some
  rw [Nat.pow_eq, Nat.pow_eq, Nat.cast_pow, Nat.cast_pow, ← zpow_natCast, ← zpow_natCast,
    ← zpow_sub₀ nonzero]
  congr 1
  omega

theorem scaleByTwo_ratio (n : Nat) (exponent : Int) :
    ((scaleByTwo n exponent).1 : ℚ) / (scaleByTwo n exponent).2 = n * 2 ^ exponent := by
  have power := zpow_eq_div (b := 2) (by decide) exponent
  rw [scaleByTwo, Nat.cast_mul, mul_div_assoc, power]
  norm_num

/-- One step of a decimal grid in binary units. -/
theorem grid_ratio (exponent scale : Int) :
    ((Nat.pow 2 (-exponent).toNat * Nat.pow 10 scale.toNat : Nat) : ℚ) /
      (Nat.pow 2 exponent.toNat * Nat.pow 10 (-scale).toNat : Nat) = 10 ^ scale / 2 ^ exponent := by
  have two := zpow_eq_div (b := 2) (by decide) exponent
  have ten := zpow_eq_div (b := 10) (by decide) scale
  push_cast at two ten ⊢
  rw [← two, ← ten, div_div_div_eq, mul_comm (((Nat.pow 2 (-exponent).toNat : Nat) : ℚ)),
    mul_comm (((Nat.pow 10 (-scale).toNat : Nat) : ℚ))]

/-! ### The search -/

section Search

variable {tie : Tie} {interval : Interval} (proper : interval.Proper) {exponent scale : Int}

/-- The grid that the search tries at one scale. -/
def gridAt (tie : Tie) (interval : Interval) (exponent scale : Int) : Option Nat :=
  onGrid tie interval (Nat.pow 2 exponent.toNat * Nat.pow 10 (-scale).toNat)
    (Nat.pow 2 (-exponent).toNat * Nat.pow 10 scale.toNat)

theorem powers_pos (a b : Nat) : 0 < Nat.pow 2 a * Nat.pow 10 b :=
  Nat.mul_pos (Nat.pow_pos (by decide)) (Nat.pow_pos (by decide))

theorem gridAt_ne_none (fine : (10 : ℚ) ^ scale / 2 ^ exponent + interval.lower < interval.upper) :
    gridAt tie interval exponent scale ≠ none := by
  have positive : (0 : ℚ) < (Nat.pow 2 exponent.toNat * Nat.pow 10 (-scale).toNat : Nat) := by
    exact_mod_cast powers_pos _ _
  rw [← grid_ratio, ← lt_sub_iff_add_lt, div_lt_iff₀ positive, sub_mul, lt_sub_iff_add_lt] at fine
  exact onGrid_ne_none (by exact_mod_cast fine)

theorem searchGrids_succ (grids : Nat) : searchGrids tie interval exponent (grids + 1) scale =
    match gridAt tie interval exponent scale with
    | some m => ⟨m, scale⟩
    | none => searchGrids tie interval exponent grids (scale - 1) := rfl

include proper

theorem gridAt_contains {m : Nat} (found : gridAt tie interval exponent scale = some m) :
    interval.Contains ((Digits.mk m scale).value / 2 ^ exponent) := by
  have inside := onGrid_contains proper (powers_pos _ _) (powers_pos _ _) found
  rw [mul_div_assoc, grid_ratio] at inside
  rw [Digits.value, mul_div_assoc]
  exact inside

/-- If the last grid is finer than an interval, the search yields a decimal in it. -/
theorem searchGrids_contains (grids : Nat)
    (fine : (10 : ℚ) ^ (scale - grids) / 2 ^ exponent + interval.lower < interval.upper) :
    interval.Contains ((searchGrids tie interval exponent (grids + 1) scale).value / 2 ^ exponent) := by
  induction grids generalizing scale with
  | zero =>
    rw [Nat.cast_zero, sub_zero] at fine
    rw [searchGrids_succ]
    cases found : gridAt tie interval exponent scale with
    | none => exact absurd found (gridAt_ne_none fine)
    | some m => exact gridAt_contains proper found
  | succ grids ih =>
    rw [searchGrids_succ]
    cases found : gridAt tie interval exponent scale with
    | none =>
      apply ih
      have last : scale - 1 - (grids : Int) = scale - (grids + 1 : Nat) := by
        push_cast
        ring
      rw [last]
      exact fine
    | some m => exact gridAt_contains proper found

end Search

/-! ### The shortest decimal -/

theorem intervalOf_proper {x : Dyadic} (positive : 0 < x.significand) : (intervalOf x).Proper := by
  constructor <;> simp only [intervalOf]
  · split <;> omega
  · omega

theorem lt_pow_digitCount (n : Nat) : n < 10 ^ digitCount n := by
  unfold digitCount
  split
  · omega
  · exact (Nat.length_toDigits_le_iff (by decide) Nat.length_toDigits_pos).mp (Nat.le_refl _)

theorem pow_digitCount_le {n : Nat} (positive : 0 < n) : 10 ^ (digitCount n - 1) ≤ n := by
  unfold digitCount
  rw [if_neg positive.ne']
  by_cases one : (Nat.toDigits 10 n).length ≤ 1
  · rw [Nat.sub_eq_zero_of_le one, Nat.pow_zero]
    exact positive
  · by_contra less
    have short := (Nat.length_toDigits_le_iff (b := 10) (n := n) (by decide) (by omega)).mpr
      (Nat.lt_of_not_le less)
    omega

/-- The leading digit of a quotient is at its decimal exponent. -/
theorem pow_decimalExponent_le {numerator denominator : Nat} (some : 0 < numerator)
    (unit : 0 < denominator) : (10 : ℚ) ^ decimalExponent numerator denominator ≤ numerator / denominator := by
  have unitPos : (0 : ℚ) < denominator := by exact_mod_cast unit
  unfold decimalExponent
  split
  · next large =>
    have positive : 0 < numerator / denominator := Nat.div_pos large unit
    have counted : 0 < digitCount (numerator / denominator) := by
      by_contra none
      have less := lt_pow_digitCount (numerator / denominator)
      rw [Nat.eq_zero_of_not_pos none] at less
      omega
    have place : (digitCount (numerator / denominator) : Int) - 1 =
        (digitCount (numerator / denominator) - 1 : Nat) := by omega
    rw [place, zpow_natCast, le_div_iff₀ unitPos]
    exact_mod_cast (Nat.mul_le_mul_right _ (pow_digitCount_le positive)).trans
      (Nat.div_mul_le_self numerator denominator)
  · next small =>
    have above := lt_pow_digitCount ((denominator + numerator - 1) / numerator - 1)
    have ceiling := Nat.lt_mul_div_succ (denominator + numerator - 1) some
    have covers : denominator ≤
        numerator * 10 ^ digitCount ((denominator + numerator - 1) / numerator - 1) := by
      calc denominator ≤ numerator * ((denominator + numerator - 1) / numerator) := by
            rw [Nat.mul_add_one] at ceiling
            omega
        _ ≤ _ := Nat.mul_le_mul_left _ (by omega)
    have somePos : (0 : ℚ) < numerator := by exact_mod_cast some
    rw [zpow_neg, zpow_natCast, inv_le_comm₀ (by positivity) (div_pos somePos unitPos), inv_div,
      div_le_iff₀ somePos, mul_comm]
    exact_mod_cast covers

theorem value_dropTrailingZero (d : Digits) : (dropTrailingZero d).value = d.value := by
  unfold dropTrailingZero
  split
  · next zero =>
    have whole : (d.digits : ℚ) = 10 * (d.digits / 10 : Nat) := by
      exact_mod_cast (Nat.mul_div_cancel' (Nat.dvd_of_mod_eq_zero zero)).symm
    rw [Digits.value, Digits.value, whole, zpow_add_one₀ (by norm_num)]
    ring
  · rfl

/-- In quarters of the last bit, the grid of seventeen digits is finer than the interval. -/
theorem fine_of_short {x : Dyadic} (positive : 0 < x.significand) (short : x.significand < 2 * hiddenBit) :
    ((intervalOf x).value : ℚ) / 10 ^ 16 + (intervalOf x).lower < (intervalOf x).upper := by
  have bit := hiddenBit_eq
  rw [← lt_sub_iff_add_lt, div_lt_iff₀ (by norm_num)]
  have enough : (intervalOf x).value + (intervalOf x).lower * 10 ^ 16 < (intervalOf x).upper * 10 ^ 16 := by
    simp only [intervalOf]
    split <;> omega
  rw [sub_mul, lt_sub_iff_add_lt]
  exact_mod_cast enough

/-- The shortest decimal of a positive quantity rounds to it. -/
theorem shortest_rounds (tie : Tie) {x : Dyadic} (positive : 0 < x.significand)
    (short : x.significand < 2 * hiddenBit) : Rounds (shortest tie x).value x := by
  have quarter := x.quarter_pos
  have leading : (10 : ℚ) ^ decimalExponent (scaleByTwo (intervalOf x).value (x.exponent - 2)).1
      (scaleByTwo (intervalOf x).value (x.exponent - 2)).2 ≤ (intervalOf x).value * x.quarter := by
    rw [Dyadic.quarter, ← scaleByTwo_ratio]
    exact pow_decimalExponent_le
      (Nat.mul_pos (Nat.mul_pos (by decide) positive) (Nat.pow_pos (by decide))) (Nat.pow_pos (by decide))
  unfold Rounds shortest
  rw [value_dropTrailingZero]
  refine searchGrids_contains (intervalOf_proper positive) 16 ?_
  have step : (10 : ℚ) ^ (decimalExponent (scaleByTwo (intervalOf x).value (x.exponent - 2)).1
      (scaleByTwo (intervalOf x).value (x.exponent - 2)).2 - (16 : Nat)) / x.quarter ≤
        (intervalOf x).value / 10 ^ 16 := by
    rw [zpow_sub₀ (by norm_num), zpow_natCast, div_right_comm]
    gcongr
    exact (div_le_iff₀ quarter).mpr leading
  exact lt_of_le_of_lt (add_le_add step le_rfl) (fine_of_short positive short)

end Lox.Decimal
