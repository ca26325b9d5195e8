import TableQuery.Number.Binary64

/-!
# Decimal numbers

A whole number times a power of ten, and the binary64 number nearest to it. An
exponent can be longer than any number that could be computed with, so numbers
far beyond the greatest or far below the least binary64 number are settled by
their size alone; the bounds leave room on both sides of the true ones.
-/

namespace TableQuery

/-- The natural number that a run of digits writes, first digit first. -/
def natOfDigits (digits : List Nat) : Nat :=
  digits.foldl (fun n d => 10 * n + d) 0

/-- A decimal number: the number its digits write, with its sign, times ten to
the power of the exponent. -/
structure Decimal where
  negative : Bool
  digits : List Nat
  exponent : Int
  deriving DecidableEq, Repr

/-- The nearest binary64 number. With `d` digits the number is below ten to
the power of `d + exponent`, and it is at least ten to the power of the
exponent unless it is zero. -/
def Decimal.toBinary64 (x : Decimal) : Binary64 :=
  let n := natOfDigits x.digits
  if n = 0 ∨ x.exponent + x.digits.length < -330 then
    .finite x.negative 0 Binary64.minExponent
  else if 330 < x.exponent then .infinite x.negative
  else .ofRatio x.negative (n * Nat.pow 10 x.exponent.toNat) (Nat.pow 10 (-x.exponent).toNat)

end TableQuery
