import Lox.Decimal.Double

set_option autoImplicit false

/-! The shortest decimal that reads back. For one, two, up to seventeen digits the two neighbours
of a quantity on that decimal grid are tried against the interval of reals that round to it; the
first grid with a hit wins, and of two hits the nearer. -/

namespace Lox.Decimal

/-- A decimal `digits · 10^scale`. -/
structure Digits where
  digits : Nat
  scale : Int
deriving Repr, DecidableEq, Inhabited

/-- Which neighbour is taken when a quantity lies half way between two decimals. -/
inductive Tie where
  | up
  | even
deriving Repr, DecidableEq, Inhabited

/-- The number of decimal digits of a positive number, and zero for zero. -/
def digitCount (n : Nat) : Nat :=
  if n = 0 then 0 else (Nat.toDigits 10 n).length

/-- The exponent `e` with `10^e ≤ numerator / denominator < 10^(e+1)`, for a positive quotient. -/
def decimalExponent (numerator denominator : Nat) : Int :=
  if denominator ≤ numerator then (digitCount (numerator / denominator) : Int) - 1
  else -(digitCount ((denominator + numerator - 1) / numerator - 1) : Int)

/-- The reals that round to a quantity, all in quarters of its last bit: the quantity itself, the
two ends, and whether the ends belong. The lower gap of a power of two is half as wide. -/
structure Interval where
  lower : Nat
  value : Nat
  upper : Nat
  closed : Bool
deriving Repr, DecidableEq, Inhabited

def intervalOf (x : Dyadic) : Interval :=
  let narrow := x.significand = hiddenBit ∧ leastExponent < x.exponent
  { lower := 4 * x.significand - (if narrow then 1 else 2)
    value := 4 * x.significand
    upper := 4 * x.significand + 2
    closed := x.significand % 2 = 0 }

/-- The decimal of one grid that reads back, if there is one. Quarters are multiplied by `up` and
grid points by `down` to make them comparable. -/
def onGrid (tie : Tie) (interval : Interval) (up down : Nat) : Option Nat :=
  let below := interval.value * up / down
  let above := below + 1
  let hitBelow :=
    if interval.closed then interval.lower * up ≤ below * down
    else interval.lower * up < below * down
  let hitAbove :=
    if interval.closed then above * down ≤ interval.upper * up
    else above * down < interval.upper * up
  let twice := 2 * (interval.value * up % down)
  if hitBelow then
    if hitAbove then
      if twice < down then some below
      else if down < twice then some above
      else match tie with
        | .up => some above
        | .even => if below % 2 = 0 then some below else some above
    else some below
  else if hitAbove then some above
  else none

/-- Tries grids of more and more digits; `scale` is the exponent of the current grid. -/
def searchGrids (tie : Tie) (interval : Interval) (exponent : Int) : Nat → Int → Digits
  | 0, scale => ⟨interval.value, scale⟩
  | grids + 1, scale =>
    let up := Nat.pow 2 exponent.toNat * Nat.pow 10 (-scale).toNat
    let down := Nat.pow 2 (-exponent).toNat * Nat.pow 10 scale.toNat
    match onGrid tie interval up down with
    | some digits => ⟨digits, scale⟩
    | none => searchGrids tie interval exponent grids (scale - 1)

def dropTrailingZero (x : Digits) : Digits :=
  if x.digits % 10 = 0 then ⟨x.digits / 10, x.scale + 1⟩ else x

/-- The shortest decimal that reads back as a positive quantity. -/
def shortest (tie : Tie) (x : Dyadic) : Digits :=
  let interval := intervalOf x
  let quarter := x.exponent - 2
  let (numerator, denominator) := scaleByTwo interval.value quarter
  dropTrailingZero
    (searchGrids tie interval quarter 17 (decimalExponent numerator denominator))

end Lox.Decimal
