import Catena.Number.Nearest

set_option autoImplicit false

/-!
The remainder of a division of doubles whose quotient is cut off toward zero. It has the sign of the
dividend and is computed without rounding.
-/

namespace Catena.Number

/-- The remainder of `m₁ * 2 ^ e₁` by `m₂ * 2 ^ e₂`, at the smaller of the two exponents. -/
def remainder (m₁ : Nat) (e₁ : Int) (m₂ : Nat) (e₂ : Int) : Nat × Int :=
  let exponent := min e₁ e₂
  (m₁ * Nat.pow 2 (e₁ - exponent).toNat % (m₂ * Nat.pow 2 (e₂ - exponent).toNat), exponent)

def floatRem (x y : Float) : Float :=
  match parts x, parts y with
  | .finite negative m₁ e₁, .finite _ m₂ e₂ =>
    if m₂ = 0 then 0.0 / 0.0
    else
      let (mantissa, exponent) := remainder m₁ e₁ m₂ e₂
      ofParts negative mantissa exponent
  | .finite .., .infinite _ => x
  | _, _ => 0.0 / 0.0

end Catena.Number
