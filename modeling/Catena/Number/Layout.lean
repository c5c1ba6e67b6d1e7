import Catena.Number.Shortest

set_option autoImplicit false

/-!
How a double is written down. The digits are the fewest that read back; a layout says from which
size on an exponent is used, how it is marked and what the exceptional numbers are called.
-/

namespace Catena.Number

structure Layout where
  /-- The exponents of the leading digit for which no exponent is written. -/
  positional : Int → Bool
  /-- Whole numbers are written with all their digits instead of the fewest. -/
  exactWhole : Bool
  /-- Stands between the mark `e` and an exponent that is not negative. -/
  plus : String
  tie : Tie
  nan : String
  infinity : String

private def zeros (n : Nat) : String :=
  String.ofList (List.replicate n '0')

/-- The decimal with a point and at least one digit on each side of it. -/
def Decimal.positional (d : Decimal) : String :=
  let digits := Nat.toDigits 10 d.coefficient
  if 0 ≤ d.exponent then
    String.ofList digits ++ zeros d.exponent.toNat ++ ".0"
  else
    let places := (-d.exponent).toNat
    if places < digits.length then
      String.ofList (digits.take (digits.length - places)) ++ "." ++
        String.ofList (digits.drop (digits.length - places))
    else
      "0." ++ zeros (places - digits.length) ++ String.ofList digits

/-- The exponent of the leading digit. -/
def Decimal.lead (d : Decimal) : Int :=
  d.exponent + (Nat.toDigits 10 d.coefficient).length - 1

/-- One digit before the point, and no point if it is the only one. -/
def Decimal.scientific (d : Decimal) (plus : String) : String :=
  let digits := Nat.toDigits 10 d.coefficient
  let sign := if d.lead < 0 then "-" else plus
  let fraction := digits.drop 1
  String.ofList (digits.take 1) ++ (if fraction.isEmpty then "" else ".") ++
    String.ofList fraction ++ "e" ++ sign ++ toString d.lead.natAbs

/-- The natural number `mantissa * 2 ^ exponent`, if it is one. -/
def whole? (mantissa : Nat) (exponent : Int) : Option Nat :=
  let divisor := Nat.pow 2 (-exponent).toNat
  if mantissa % divisor = 0 then some (mantissa * Nat.pow 2 exponent.toNat / divisor) else none

namespace Layout

def magnitude (layout : Layout) (mantissa : Nat) (exponent : Int) : String :=
  let exact := if layout.exactWhole then whole? mantissa exponent else none
  match exact with
  | some n => Decimal.positional ⟨n, 0⟩
  | none =>
    if mantissa = 0 then Decimal.positional ⟨0, 0⟩
    else
      let digits := shortest layout.tie mantissa exponent
      if layout.positional digits.lead then digits.positional
      else digits.scientific layout.plus

def write (layout : Layout) (x : Float) : String :=
  match parts x with
  | .nan => layout.nan
  | .infinite negative => (if negative then "-" else "") ++ layout.infinity
  | .finite negative mantissa exponent =>
    (if negative then "-" else "") ++ layout.magnitude mantissa exponent

end Layout

end Catena.Number
