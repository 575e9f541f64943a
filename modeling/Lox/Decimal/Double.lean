set_option autoImplicit false

/-! Double-precision numbers as exact quantities: a finite double is a sign and `digits · 2^scale`.
Reading a quotient back takes the nearest double, a tie going to the even neighbour. -/

namespace Lox.Decimal

/-- A finite non-negative quantity `significand · 2^exponent`. -/
structure Dyadic where
  significand : Nat
  exponent : Int
deriving Repr, DecidableEq, Inhabited

inductive Reading where
  | nan
  | infinite (negative : Bool)
  | finite (negative : Bool) (magnitude : Dyadic)
deriving Repr, DecidableEq, Inhabited

def hiddenBit : Nat := Nat.pow 2 52

def leastExponent : Int := -1074

def infinityCode : Nat := 2047 * hiddenBit

/-- The quantity of a sign-free code below that of infinity. -/
def magnitudeOfCode (code : Nat) : Dyadic :=
  let field := code / hiddenBit
  let fraction := code % hiddenBit
  if field = 0 then ⟨fraction, leastExponent⟩
  else ⟨hiddenBit + fraction, leastExponent + (field - 1 : Nat)⟩

def signBit : Nat := Nat.pow 2 63

def readBits (bits : Nat) : Reading :=
  let negative := signBit ≤ bits
  let code := bits % signBit
  if code < infinityCode then .finite negative (magnitudeOfCode code)
  else if code = infinityCode then .infinite negative
  else .nan

def read (x : Float) : Reading :=
  readBits x.toBits.toNat

/-- The numerator and the denominator of `n · 2^exponent`. -/
def scaleByTwo (n : Nat) (exponent : Int) : Nat × Nat :=
  (n * Nat.pow 2 exponent.toNat, Nat.pow 2 (-exponent).toNat)

/-- The exponent `e` with `2^e ≤ numerator / denominator < 2^(e+1)`, for a positive quotient. -/
def binaryExponent (numerator denominator : Nat) : Int :=
  let a := numerator.log2
  let b := denominator.log2
  if denominator * Nat.pow 2 a ≤ numerator * Nat.pow 2 b then (a : Int) - b else (a : Int) - b - 1

/-- The nearest whole number to a quotient, a half going to the even neighbour. -/
def roundHalfEven (numerator denominator : Nat) : Nat :=
  let whole := numerator / denominator
  let twice := 2 * (numerator % denominator)
  if twice < denominator then whole
  else if denominator < twice then whole + 1
  else if whole % 2 = 0 then whole
  else whole + 1

/-- The sign-free code of the double nearest to a quotient. A significand that rounds up to the
next power of two carries into the exponent field, which is the right code. -/
def nearestCode (numerator denominator : Nat) : Nat :=
  if numerator = 0 then 0
  else
    let unit := max (binaryExponent numerator denominator - 52) leastExponent
    let significand :=
      roundHalfEven (numerator * Nat.pow 2 (-unit).toNat) (denominator * Nat.pow 2 unit.toNat)
    min ((unit - leastExponent).toNat * hiddenBit + significand) infinityCode

/-- The double nearest to `digits / 10^places`. -/
def ofDigits (digits places : Nat) : Float :=
  Float.ofBits (UInt64.ofNat (nearestCode digits (Nat.pow 10 places)))

end Lox.Decimal
