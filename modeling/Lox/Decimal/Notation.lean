import Lox.Decimal.Shortest

set_option autoImplicit false

/-! Decimals as text. A style says which exponents are written positionally, whether a whole
number keeps a point, and how values that are not finite are named. -/

namespace Lox.Decimal

inductive Whole where
  /-- The shortest digits, without a point: `100`. -/
  | bare
  /-- The shortest digits and a point: `100.0`. -/
  | pointed
  /-- Every digit of the exact value and a point, below the bound if there is one. -/
  | exact (bound : Option Nat)
deriving Repr, DecidableEq, Inhabited

structure Style where
  whole : Whole
  tie : Tie
  /-- The least and the greatest exponent of the first digit that are written positionally. -/
  positional : Option (Int × Int)
  nan : String
  infinity : String
  minusInfinity : String
deriving Repr, DecidableEq, Inhabited

def zeros (n : Nat) : String :=
  String.ofList (List.replicate n '0')

/-- A decimal without an exponent; a whole number gets no point. -/
def positionalText (x : Digits) : String :=
  let text := toString x.digits
  if 0 ≤ x.scale then text ++ zeros x.scale.toNat
  else
    let places := (-x.scale).toNat
    let digits := text.toList
    if places < digits.length then
      String.ofList (digits.take (digits.length - places)) ++ "." ++
        String.ofList (digits.drop (digits.length - places))
    else "0." ++ zeros (places - digits.length) ++ text

/-- A decimal as one digit, the others behind a point, and a signed exponent. -/
def exponentText (x : Digits) : String :=
  let digits := (toString x.digits).toList
  let exponent : Int := x.scale + (digits.length : Int) - 1
  let sign := if exponent < 0 then "-" else "+"
  let fraction := if digits.length ≤ 1 then "" else "." ++ String.ofList (digits.drop 1)
  String.ofList (digits.take 1) ++ fraction ++ "e" ++ sign ++ toString exponent.natAbs

def Dyadic.whole? (x : Dyadic) : Option Nat :=
  let (numerator, denominator) := scaleByTwo x.significand x.exponent
  if numerator % denominator = 0 then some (numerator / denominator) else none

def shortestText (style : Style) (x : Dyadic) (isWhole : Bool) : String :=
  let point := if isWhole && style.whole == .pointed then ".0" else ""
  if x.significand = 0 then "0" ++ point
  else
    let digits := shortest style.tie x
    let exponent : Int := digits.scale + (toString digits.digits).length - 1
    match style.positional with
    | none => positionalText digits ++ point
    | some (least, greatest) =>
      if least ≤ exponent ∧ exponent ≤ greatest then positionalText digits ++ point
      else exponentText digits

def magnitudeText (style : Style) (x : Dyadic) : String :=
  match x.whole?, style.whole with
  | some n, .exact none => toString n ++ ".0"
  | some n, .exact (some bound) =>
    if n < bound then toString n ++ ".0" else shortestText style x true
  | some _, _ => shortestText style x true
  | none, _ => shortestText style x false

def format (style : Style) (x : Float) : String :=
  match read x with
  | .nan => style.nan
  | .infinite negative => if negative then style.minusInfinity else style.infinity
  | .finite negative magnitude => (if negative then "-" else "") ++ magnitudeText style magnitude

end Lox.Decimal
