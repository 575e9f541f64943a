import Lox.Proofs.Decimal.Shortest
import Lox.Syntax.SExpr
import Mathlib.Data.List.Basic
import Mathlib.Tactic.SplitIfs

set_option autoImplicit false

/-! Numbers in trees. Those that are read back from digits have no sign, so that their bits are their code; each
of them is written as a numeral, digits with at most one point among them, and the numeral stands for a real
that rounds to the number. So different numbers are written differently. -/

namespace Lox.Decimal

/-! ### Doubles without a sign -/

/-- The number is not infinite and is one. -/
def IsFinite (x : Float) : Prop :=
  ∃ negative magnitude, read x = .finite negative magnitude

instance (x : Float) : Decidable (IsFinite x) :=
  match found : read x with
  | .finite negative magnitude => .isTrue ⟨negative, magnitude, found⟩
  | .infinite _ => .isFalse fun ⟨_, _, finite⟩ => nomatch found.symm.trans finite
  | .nan => .isFalse fun ⟨_, _, finite⟩ => nomatch found.symm.trans finite

/-- A double that is finite and not negative. -/
def IsPlain (x : Float) : Prop :=
  x.toBits.toNat < infinityCode

theorem infinityCode_lt_signBit : infinityCode < signBit := by
  decide +kernel

theorem IsPlain.read_eq {x : Float} (plain : IsPlain x) :
    read x = .finite false (magnitudeOfCode x.toBits.toNat) := by
  have small := Nat.lt_trans plain infinityCode_lt_signBit
  have positive : decide (signBit ≤ x.toBits.toNat) = false := decide_eq_false (Nat.not_le_of_lt small)
  simp only [read, readBits, Nat.mod_eq_of_lt small, if_pos (show x.toBits.toNat < infinityCode from plain),
    positive]

theorem isPlain_of_isFinite {x : Float} (finite : IsFinite x) (unsigned : x.toBits.toNat < signBit) :
    IsPlain x := by
  obtain ⟨negative, magnitude, result⟩ := finite
  unfold read readBits at result
  dsimp only at result
  rw [Nat.mod_eq_of_lt unsigned] at result
  split_ifs at result with below
  exact below

theorem eq_of_toBits {x y : Float} (same : x.toBits.toNat = y.toBits.toNat) : x = y := by
  have bits : x.toBits = y.toBits := UInt64.toNat_inj.mp same
  obtain ⟨⟨_, _⟩⟩ := x
  obtain ⟨⟨_, _⟩⟩ := y
  cases bits
  rfl

section sign

open Float.Model (Format UnpackedFloat)
open Float.Model.UnpackedFloat (Sign packComponents unpackSign)

theorem msb_packComponents (exponent : BitVec 11) (mantissa : BitVec 52) :
    (packComponents Format.binary64 .positive exponent mantissa).msb = false := by
  unfold packComponents
  rw [BitVec.msb_append, BitVec.msb_append]
  rfl

/-- Not a negative number, nor the negative zero. -/
def Unsigned : UnpackedFloat → Prop
  | .notANumber => True
  | .infinity s | .zero s | .finite s _ _ _ => s = .positive

theorem msb_pack {x : UnpackedFloat} (unsigned : Unsigned x) :
    (UnpackedFloat.pack Format.binary64 x).msb = false := by
  cases x with
  | notANumber => exact msb_packComponents _ _
  | infinity s =>
    cases unsigned
    exact msb_packComponents _ _
  | zero s =>
    cases unsigned
    exact msb_packComponents _ _
  | finite s mantissa exponent positive =>
    cases unsigned
    unfold UnpackedFloat.pack
    dsimp only
    split_ifs <;> exact msb_packComponents _ _

theorem unsigned_dite {c : Prop} [Decidable c] {one : c → UnpackedFloat} {other : ¬c → UnpackedFloat}
    (first : ∀ holds, Unsigned (one holds)) (second : ∀ fails, Unsigned (other fails)) :
    Unsigned (dite c one other) := by
  by_cases holds : c
  · rw [dif_pos holds]
    exact first holds
  · rw [dif_neg holds]
    exact second holds

theorem unsigned_unpack {bits : BitVec 64} (clear : bits.msb = false) :
    Unsigned (UnpackedFloat.unpack Format.binary64 bits) := by
  have sign : Sign.ofBitVec (@unpackSign Format.binary64 bits) = .positive := by
    have below := BitVec.msb_eq_false_iff_two_mul_lt.mp clear
    unfold unpackSign Sign.ofBitVec
    rw [if_pos]
    apply BitVec.eq_of_toNat_eq
    simp
    omega
  unfold UnpackedFloat.unpack
  dsimp only
  refine iteInduction (fun _ => iteInduction (fun _ => sign) fun _ => trivial) fun _ => ?_
  exact iteInduction (fun _ => unsigned_dite (fun _ => sign) fun _ => sign) fun _ => sign

theorem msb_of_lt {bits : UInt64} : bits.toBitVec.msb = false ↔ bits.toNat < signBit := by
  have value : signBit = 2 ^ 63 := by decide +kernel
  have same : bits.toBitVec.toNat = bits.toNat := rfl
  rw [BitVec.msb_eq_false_iff_two_mul_lt, same, value]
  omega

/-- What is read back from bits without a sign has none. -/
theorem toBits_ofBits_lt {bits : UInt64} (unsigned : bits.toNat < signBit) :
    (Float.ofBits bits).toBits.toNat < signBit :=
  msb_of_lt.mp (msb_pack (unsigned_unpack (msb_of_lt.mpr unsigned)))

theorem nearestCode_le (numerator denominator : Nat) : nearestCode numerator denominator ≤ infinityCode := by
  unfold nearestCode
  split
  · exact Nat.zero_le _
  · exact Nat.min_le_right _ _

/-- Digits that are read back never have a sign. -/
theorem toBits_ofDigits_lt (digits places : Nat) : (ofDigits digits places).toBits.toNat < signBit := by
  have code := Nat.lt_of_le_of_lt (nearestCode_le digits (Nat.pow 10 places)) infinityCode_lt_signBit
  exact toBits_ofBits_lt (Nat.lt_of_le_of_lt (UInt64.toNat_ofNat' ▸ Nat.mod_le _ _) code)

end sign

/-! ### Numerals -/

/-- How a real can be written with digits and at most one point. -/
inductive Numeral : List Char → ℚ → Prop
  | whole {digits : List Char} (some : digits ≠ []) (all : ∀ c ∈ digits, c.isDigit = true) :
      Numeral digits (Nat.ofDigitChars 10 digits 0)
  | pointed {digits fraction : List Char} (some : digits ≠ [])
      (all : ∀ c ∈ digits, c.isDigit = true) (allMore : ∀ c ∈ fraction, c.isDigit = true) :
      Numeral (digits ++ '.' :: fraction)
        (Nat.ofDigitChars 10 (digits ++ fraction) 0 / 10 ^ fraction.length)

theorem point_not_mem {digits : List Char} (all : ∀ c ∈ digits, c.isDigit = true) : '.' ∉ digits :=
  fun member => absurd (all '.' member) (by decide)

theorem point_mem (digits fraction : List Char) : '.' ∈ digits ++ '.' :: fraction :=
  List.mem_append_right _ List.mem_cons_self

/-- A numeral stands for one real. -/
theorem Numeral.unique {text other : List Char} {q r : ℚ} (one : Numeral text q) (two : Numeral other r)
    (same : text = other) : q = r := by
  cases one with
  | whole some all =>
    cases two with
    | whole => rw [same]
    | pointed => exact absurd (same ▸ point_mem _ _) (point_not_mem all)
  | pointed some all allMore =>
    cases two with
    | whole some' all' => exact absurd (same ▸ point_mem _ _) (point_not_mem all')
    | pointed some' all' allMore' =>
      obtain ⟨rfl, -, rfl⟩ := (List.append_cons_inj_of_notMem (point_not_mem all)
        (point_not_mem allMore)).mp same
      rfl

theorem Numeral.ofEq {text other : List Char} {q r : ℚ} (numeral : Numeral text q) (same : text = other)
    (value : q = r) : Numeral other r :=
  same ▸ value ▸ numeral

/-! ### Digits -/

theorem toDigits_all (n : Nat) : ∀ c ∈ Nat.toDigits 10 n, c.isDigit = true :=
  fun _ member => Nat.isDigit_of_mem_toDigits (by decide) (by decide) member

theorem toList_toString (n : Nat) : (toString n).toList = Nat.toDigits 10 n := by
  rw [Nat.toString_eq_ofList_toDigits, String.toList_ofList]

theorem zeros_all (n : Nat) : ∀ c ∈ List.replicate n '0', c.isDigit = true :=
  fun _ member => List.eq_of_mem_replicate member ▸ rfl

theorem digits_append {one two : List Char} (first : ∀ c ∈ one, c.isDigit = true)
    (second : ∀ c ∈ two, c.isDigit = true) : ∀ c ∈ one ++ two, c.isDigit = true :=
  fun c member => (List.mem_append.mp member).elim (first c) (second c)

theorem ofDigitChars_before (n places : Nat) :
    Nat.ofDigitChars 10 (Nat.toDigits 10 n ++ List.replicate places '0') 0 = n * 10 ^ places := by
  rw [Nat.ofDigitChars_append, Nat.ofDigitChars_ten_toDigits, Nat.ofDigitChars_replicate_zero, Nat.mul_comm]

theorem ofDigitChars_behind (n places : Nat) :
    Nat.ofDigitChars 10 (List.replicate places '0' ++ Nat.toDigits 10 n) 0 = n := by
  rw [Nat.ofDigitChars_append, Nat.ofDigitChars_replicate_zero, Nat.mul_zero,
    Nat.ofDigitChars_ten_toDigits]

theorem Digits.value_large {d : Digits} (large : 0 ≤ d.scale) :
    d.value = (d.digits * 10 ^ d.scale.toNat : Nat) := by
  obtain ⟨places, scale⟩ := Int.eq_ofNat_of_zero_le large
  simp [Digits.value, scale]

theorem Digits.value_small {d : Digits} (small : ¬0 ≤ d.scale) :
    d.value = d.digits / 10 ^ (-d.scale).toNat := by
  obtain ⟨places, scale⟩ := Int.eq_ofNat_of_zero_le (show 0 ≤ -d.scale by omega)
  rw [Digits.value, scale, Int.toNat_natCast, show d.scale = -(places : Int) by omega, zpow_neg,
    zpow_natCast, div_eq_mul_inv]

/-! ### Texts -/

/-- A whole number is written with all its digits, a point and a zero. -/
theorem numeral_whole (n : Nat) : Numeral (toString n ++ ".0").toList n := by
  have numeral : Numeral (Nat.toDigits 10 n ++ '.' :: List.replicate 1 '0') _ :=
    .pointed Nat.toDigits_ne_nil (toDigits_all n) (zeros_all 1)
  apply numeral.ofEq
  · rw [String.toList_append, toList_toString]
    rfl
  · rw [ofDigitChars_before, List.length_replicate]
    push_cast
    exact mul_div_cancel_right₀ _ (by norm_num)

theorem numeral_positionalText (d : Digits) : Numeral (positionalText d).toList d.value := by
  by_cases large : 0 ≤ d.scale
  · -- All digits stand before the point.
    have numeral : Numeral (Nat.toDigits 10 d.digits ++ List.replicate d.scale.toNat '0') _ :=
      .whole (by simp [Nat.toDigits_ne_nil]) (digits_append (toDigits_all _) (zeros_all _))
    apply numeral.ofEq
    · simp [positionalText, zeros, large]
    · rw [ofDigitChars_before, Digits.value_large large]
  · by_cases few : (-d.scale).toNat < (Nat.toDigits 10 d.digits).length
    · -- The point stands among the digits.
      have split := List.take_append_drop
        ((Nat.toDigits 10 d.digits).length - (-d.scale).toNat) (Nat.toDigits 10 d.digits)
      have all := toDigits_all d.digits
      rw [← split] at all
      have numeral : Numeral (_ ++ '.' :: _) _ :=
        .pointed (by simp [Nat.toDigits_ne_nil]; omega)
          (fun c member => all c (List.mem_append_left _ member))
          (fun c member => all c (List.mem_append_right _ member))
      apply numeral.ofEq
      · simp [positionalText, large, few]
      · rw [split, Nat.ofDigitChars_ten_toDigits, Digits.value_small large, List.length_drop]
        congr 2
        omega
    · -- Zeros stand between the point and the digits.
      have numeral : Numeral (['0'] ++ '.' :: (List.replicate ((-d.scale).toNat -
          (Nat.toDigits 10 d.digits).length) '0' ++ Nat.toDigits 10 d.digits)) _ :=
        .pointed (List.cons_ne_nil _ _) (zeros_all 1) (digits_append (zeros_all _) (toDigits_all _))
      apply numeral.ofEq
      · simp [positionalText, zeros, large, few]
      · have behind := ofDigitChars_behind d.digits
          ((-d.scale).toNat - (Nat.toDigits 10 d.digits).length + 1)
        rw [List.replicate_succ, List.cons_append] at behind
        rw [List.singleton_append, behind, Digits.value_small large, List.length_append,
          List.length_replicate, Nat.sub_add_cancel (Nat.le_of_not_lt few)]

/-! ### Quantities -/

theorem significand_lt (code : Nat) : (magnitudeOfCode code).significand < 2 * hiddenBit := by
  have fraction : code % hiddenBit < hiddenBit := Nat.mod_lt _ (by decide +kernel)
  cases row : code / hiddenBit with
  | zero =>
    rw [magnitudeOfCode_least row]
    dsimp only
    omega
  | succ before =>
    rw [magnitudeOfCode_row row]
    dsimp only
    omega

/-- A quantity rounds to itself. -/
theorem rounds_self (x : Dyadic) : Rounds (x.significand * 2 ^ x.exponent) x := by
  have quarters : (x.significand * 2 ^ x.exponent : ℚ) / x.quarter = (4 * x.significand : Nat) := by
    rw [div_eq_iff x.quarter_pos.ne', Dyadic.quarter, zpow_sub₀ (by norm_num)]
    push_cast
    ring
  unfold Rounds
  rw [quarters]
  constructor
  · simp only [intervalOf, Nat.cast_le]
    exact Nat.sub_le _ _
  · simp only [intervalOf, Nat.cast_le]
    exact Nat.le_add_right _ _
  · simp only [intervalOf, decide_eq_false_iff_not, ne_eq, Nat.cast_inj]
    intro odd
    split <;> omega

theorem value_of_whole {x : Dyadic} {n : Nat} (whole : x.whole? = some n) :
    (n : ℚ) = x.significand * 2 ^ x.exponent := by
  unfold Dyadic.whole? at whole
  dsimp only at whole
  split at whole
  · next exact =>
    have unit : ((scaleByTwo x.significand x.exponent).2 : ℚ) ≠ 0 := by
      exact_mod_cast (Nat.pow_pos (by decide)).ne'
    rw [← scaleByTwo_ratio, ← Option.some.inj whole, eq_div_iff unit]
    exact_mod_cast Nat.div_mul_cancel (Nat.dvd_of_mod_eq_zero exact)
  · cases whole

theorem significand_pos_of_whole {x : Dyadic} (broken : x.whole? = none) : 0 < x.significand := by
  obtain ⟨significand, exponent⟩ := x
  rw [Nat.pos_iff_ne_zero]
  rintro rfl
  simp [Dyadic.whole?, scaleByTwo] at broken

/-- What is written for a quantity rounds to it. -/
theorem magnitudeText_rounds (code : Nat) : ∃ q,
    Numeral (magnitudeText Literal.numberStyle (magnitudeOfCode code)).toList q ∧
      Rounds q (magnitudeOfCode code) := by
  cases whole : (magnitudeOfCode code).whole? with
  | some n =>
    refine ⟨n, ?_, value_of_whole whole ▸ rounds_self _⟩
    simp only [magnitudeText, whole, Literal.numberStyle]
    exact numeral_whole n
  | none =>
    have positive := significand_pos_of_whole whole
    refine ⟨_, ?_, shortest_rounds .up positive (significand_lt code)⟩
    have text : magnitudeText Literal.numberStyle (magnitudeOfCode code) =
        positionalText (shortest .up (magnitudeOfCode code)) := by
      simp [magnitudeText, whole, shortestText, Literal.numberStyle, positive.ne']
    rw [text]
    exact numeral_positionalText _

theorem format_plain {x : Float} (plain : IsPlain x) : format Literal.numberStyle x =
    magnitudeText Literal.numberStyle (magnitudeOfCode x.toBits.toNat) := by
  simp only [format, plain.read_eq, Bool.false_eq_true, if_false, String.empty_append]

/-- Different numbers are written differently. -/
theorem format_injOn : Set.InjOn (format Literal.numberStyle) {x | IsPlain x} := by
  intro x plain y alsoPlain same
  rw [format_plain plain, format_plain alsoPlain] at same
  obtain ⟨q, numeral, rounds⟩ := magnitudeText_rounds x.toBits.toNat
  obtain ⟨r, other, alsoRounds⟩ := magnitudeText_rounds y.toBits.toNat
  rw [← numeral.unique other (congrArg String.toList same)] at alsoRounds
  exact eq_of_toBits (code_eq_of_rounds rounds alsoRounds)

end Lox.Decimal
