import Catena.Number.Binary

set_option autoImplicit false

/-!
The double nearest to a fraction. The quotient is cut to as many bits as a mantissa has and rounded
by what is left over; of two equally near mantissas the even one is taken.
-/

namespace Catena.Number

/-- The double `mantissa * 2 ^ exponent`, for a mantissa of at most 53 bits that has fewer only at
the least exponent. What is too large is infinite. -/
def pack (mantissa : Nat) (exponent : Int) : Float :=
  let (mantissa, exponent) :=
    if mantissa = 2 * leastNormal then (leastNormal, exponent + 1) else (mantissa, exponent)
  let biased := (exponent - leastExponent).toNat + 1
  if mantissa < leastNormal then .ofBits (.ofNat mantissa)
  else if 2047 ≤ biased then .ofBits (.ofNat (2047 * leastNormal))
  else .ofBits (.ofNat (biased * leastNormal + (mantissa - leastNormal)))

/-- The natural number nearest to a quotient. -/
def roundDiv (numerator denominator : Nat) : Nat :=
  let quotient := numerator / denominator
  let twice := 2 * (numerator % denominator)
  if twice < denominator then quotient
  else if denominator < twice then quotient + 1
  else quotient + quotient % 2

/-- The exponent at which a quotient has 53 bits before the point, or the least exponent if it would
be lower. -/
def bitExponent (numerator denominator : Nat) : Int :=
  let estimate := max leastExponent ((numerator.log2 : Int) - denominator.log2 - 53)
  let quotient :=
    numerator * Nat.pow 2 (-estimate).toNat / (denominator * Nat.pow 2 estimate.toNat)
  if 2 * leastNormal ≤ quotient then estimate + 1 else estimate

def nearest (numerator denominator : Nat) : Float :=
  let exponent := bitExponent numerator denominator
  pack (roundDiv (numerator * Nat.pow 2 (-exponent).toNat)
    (denominator * Nat.pow 2 exponent.toNat)) exponent

/-- The double nearest to `± mantissa * 2 ^ exponent`. -/
def ofParts (negative : Bool) (mantissa : Nat) (exponent : Int) : Float :=
  let magnitude := nearest (mantissa * Nat.pow 2 exponent.toNat) (Nat.pow 2 (-exponent).toNat)
  if negative then -magnitude else magnitude

end Catena.Number
