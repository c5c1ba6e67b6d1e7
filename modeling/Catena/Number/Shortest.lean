import Catena.Number.Binary

set_option autoImplicit false

/-!
The fewest decimal digits that read back as a given double. A decimal reads back when it lies in the
interval of numbers that round to the double; the ends belong to the interval when the mantissa is
even. Among the shortest decimals the one nearest to the double is taken.
-/

namespace Catena.Number

/-- The number `coefficient * 10 ^ exponent`. -/
structure Decimal where
  coefficient : Nat
  exponent : Int
  deriving DecidableEq, Repr

/-- Which of two equally near decimals is written. -/
inductive Tie where
  | up
  | even
  deriving DecidableEq, Repr

/-- A double with the interval of numbers that round to it, over one denominator. -/
structure Interval where
  value : Nat
  low : Nat
  high : Nat
  denominator : Nat
  closed : Bool
  deriving Repr

/-- Numbers round to the nearest double, so the interval reaches half a step to each side; below a
power of two the step is half as wide. -/
def Interval.around (mantissa : Nat) (exponent : Int) : Interval :=
  let below := if mantissa = leastNormal ∧ leastExponent < exponent then 1 else 2
  let scale := Nat.pow 2 (exponent - 2).toNat
  { value := 4 * mantissa * scale
    low := (4 * mantissa - below) * scale
    high := (4 * mantissa + 2) * scale
    denominator := Nat.pow 2 (2 - exponent).toNat
    closed := mantissa % 2 = 0 }

namespace Interval

/-- The exponent of ten of the leading digit. -/
def magnitude (i : Interval) : Int :=
  if i.denominator ≤ i.value then
    ((Nat.toDigits 10 (i.value / i.denominator)).length : Int) - 1
  else
    let places := (Nat.toDigits 10 (i.denominator / i.value)).length
    if i.denominator ≤ i.value * Nat.pow 10 (places - 1) then 1 - (places : Int)
    else -(places : Int)

/-- Whether `count * 10 ^ exponent` reads back. -/
def holds (i : Interval) (count : Nat) (exponent : Int) : Bool :=
  let up := Nat.pow 10 (-exponent).toNat
  let point := count * Nat.pow 10 exponent.toNat * i.denominator
  if i.closed then i.low * up ≤ point && point ≤ i.high * up
  else i.low * up < point && point < i.high * up

/-- The neighbour on the grid of multiples of `10 ^ exponent` that reads back, if one does; of two
the nearer, and a tie as `tie` says. -/
def onGrid? (i : Interval) (tie : Tie) (exponent : Int) : Option Nat :=
  let unit := i.denominator * Nat.pow 10 exponent.toNat
  let scaled := i.value * Nat.pow 10 (-exponent).toNat
  let floor := scaled / unit
  let twice := 2 * (scaled % unit)
  match i.holds floor exponent, i.holds (floor + 1) exponent with
  | false, false => none
  | true, false => some floor
  | false, true => some (floor + 1)
  | true, true =>
    if twice < unit then some floor
    else if unit < twice then some (floor + 1)
    else match tie with
      | .up => some (floor + 1)
      | .even => if floor % 2 = 0 then some floor else some (floor + 1)

end Interval

/-- Drops the zeros at the end of a coefficient. -/
def Decimal.trim (d : Decimal) : Decimal :=
  let digits := Nat.toDigits 10 d.coefficient
  let zeros := (digits.reverse.takeWhile (· == '0')).length
  if d.coefficient = 0 then d
  else ⟨d.coefficient / Nat.pow 10 zeros, d.exponent + zeros⟩

/-- Seventeen digits are always enough. -/
def shortest (tie : Tie) (mantissa : Nat) (exponent : Int) : Decimal :=
  let interval := Interval.around mantissa exponent
  let lead := interval.magnitude
  let grid (places : Nat) : Int := lead - places
  let found := (List.range 17).findSome? fun places =>
    (interval.onGrid? tie (grid places)).map fun count => Decimal.mk count (grid places)
  (found.getD ⟨mantissa, exponent⟩).trim

end Catena.Number
