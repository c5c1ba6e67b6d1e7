set_option autoImplicit false

/-!
A double as a sign, a natural mantissa and a power of two. All exact work on floating-point numbers
(their digits, their remainders) is done on these parts.
-/

namespace Catena.Number

inductive Parts where
  | nan
  | infinite (negative : Bool)
  /-- The number `± mantissa * 2 ^ exponent`. -/
  | finite (negative : Bool) (mantissa : Nat) (exponent : Int)
  deriving DecidableEq, Repr

/-- The exponent shared by zero and all numbers below the normal range. -/
def leastExponent : Int := -1074

/-- Mantissas of normal numbers start here. -/
def leastNormal : Nat := Nat.pow 2 52

def parts (x : Float) : Parts :=
  let bits := x.toBits.toNat
  let negative := bits / Nat.pow 2 63 == 1
  let biased := bits / Nat.pow 2 52 % Nat.pow 2 11
  let fraction := bits % Nat.pow 2 52
  if biased = 2047 then
    if fraction = 0 then .infinite negative else .nan
  else if biased = 0 then
    .finite negative fraction leastExponent
  else
    .finite negative (leastNormal + fraction) (leastExponent + (biased - 1 : Nat))

end Catena.Number
