/-!
# Binary64 numbers

Numbers with a binary significand of at most 53 bits and an exponent from -1074
to 971, the two infinities, and the value that is not a number. A ratio of
natural numbers is rounded to the nearest of them in exact arithmetic: first
the power of two that the significand is to be multiplied by is found, then the
quotient by that power is rounded, a half going to the even neighbour. A shift
to the left multiplies by a power of two.
-/

namespace TableQuery

/-- A binary64 number; a finite one is its significand times two to the power
of its exponent, and zero has a sign. -/
inductive Binary64 where
  | finite (negative : Bool) (significand : Nat) (exponent : Int)
  | infinite (negative : Bool)
  | nan
  deriving DecidableEq, Repr

namespace Binary64

/-- The quotient of two natural numbers as the nearest natural number, a half
going to the even neighbour. -/
def roundQuotient (num den : Nat) : Nat :=
  let quotient := num / den
  let twice := 2 * (num % den)
  if twice < den then quotient
  else if den < twice then quotient + 1
  else quotient + quotient % 2

/-- The greatest power of two that is at most `num / den`, by its exponent;
both are positive. -/
def binade (num den : Nat) : Int :=
  let estimate : Int := (num.log2 : Int) - den.log2
  if den <<< estimate.toNat ≤ num <<< (-estimate).toNat then estimate else estimate - 1

/-- The least exponent of a finite number. -/
def minExponent : Int := -1074

/-- The greatest exponent of a finite number. -/
def maxExponent : Int := 971

/-- The binary64 number nearest to `num / den`, with the given sign; a number
past the greatest finite one by half a step or more becomes infinite. -/
def ofRatio (negative : Bool) (num den : Nat) : Binary64 :=
  if num = 0 then .finite negative 0 minExponent
  else
    let exponent := max minExponent (binade num den - 52)
    let significand := roundQuotient (num <<< (-exponent).toNat) (den <<< exponent.toNat)
    let (significand, exponent) :=
      if significand = 1 <<< 53 then (1 <<< 52, exponent + 1) else (significand, exponent)
    if maxExponent < exponent then .infinite negative else .finite negative significand exponent

/-- The value of a finite number. -/
def ratio (negative : Bool) (significand : Nat) (exponent : Int) : Rat :=
  let magnitude : Int := (significand <<< exponent.toNat : Nat)
  mkRat (if negative then -magnitude else magnitude) (1 <<< (-exponent).toNat)

/-- The bit that stands for a sign. -/
def signBit (negative : Bool) : UInt64 :=
  if negative then 0x8000000000000000 else 0

/-- The 64 bits that stand for a number: sign, biased exponent and fraction.
For finite numbers the last two are one count, since the fraction of the
greatest significand runs over into the exponent. -/
def toBits : Binary64 → UInt64
  | .finite negative significand exponent =>
    let rest := ((exponent - minExponent).toNat <<< 52) + significand
    signBit negative ||| UInt64.ofNat rest
  | .infinite negative => signBit negative ||| 0x7ff0000000000000
  | .nan => 0x7ff8000000000000

end Binary64

end TableQuery
