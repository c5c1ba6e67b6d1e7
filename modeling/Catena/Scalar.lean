import Catena.Number.Layout
import Catena.Number.Read
import Catena.Text.Case
import Catena.Text.Quoted

set_option autoImplicit false

/-!
Plain values of settings, and what they count for. Settings are lenient: numbers, words and truth
values stand for each other where that makes sense.
-/

namespace Catena

inductive Scalar where
  | bool (b : Bool)
  | int (n : Int64)
  | float (x : Float)
  | text (word : String)

instance : Inhabited Scalar := ⟨.bool false⟩

namespace Scalar

def yes : List String := ["true", "on", "yes"]

def no : List String := ["false", "off", "no"]

/-- The number that digits after an optional plus sign stand for, if it fits into 64 bits. -/
def wide? (text : String) : Option Nat :=
  let digits :=
    match text.toList with
    | '+' :: rest => rest
    | other => other
  if digits.isEmpty || !digits.all Char.isDigit then none
  else
    let n := Number.ofDigits digits
    if n < Nat.pow 2 64 then some n else none

/-- A count is not negative. Fractions are rounded, and numbers that are too large count as the
largest one. -/
def count? : Scalar → Option Nat
  | .bool b => some b.toNat
  | .int n => if 0 ≤ n then some n.toInt.toNat else none
  | .float x => some x.round.toUInt64.toNat
  | .text word =>
    if Text.lowercase word ∈ yes then some 1
    else if Text.lowercase word ∈ no then some 0
    else wide? word

/-- A switch is off for zero and on for every other number. -/
def switch? : Scalar → Option Bool
  | .bool b => some b
  | .int n => some (n != 0)
  | .float x => some (x != 0.0)
  | .text word =>
    if Text.lowercase word ∈ "1" :: yes then some true
    else if Text.lowercase word ∈ "0" :: no then some false
    else none

/-- Floats are written with the fewest digits that read back, and never with an exponent. -/
def floatText : Number.Layout where
  positional _ := true
  exactWhole := false
  plus := ""
  tie := .up
  nan := "NaN"
  infinity := "inf"

/-- The value as complaints show it. -/
def describe : Scalar → String
  | .bool true => "boolean `true`"
  | .bool false => "boolean `false`"
  | .int n => s!"integer `{n.toInt}`"
  | .float x => s!"floating point `{floatText.write x}`"
  | .text word => s!"string {Text.quoted word}"

private def integer? (text : String) : Option Int64 :=
  let (negative, digits) :=
    match text.toList with
    | '-' :: rest => (true, rest)
    | '+' :: rest => (false, rest)
    | rest => (false, rest)
  if digits.isEmpty || !digits.all Char.isDigit then none
  else
    let n : Int := Number.ofDigits digits
    Number.ofInt? (if negative then -n else n)

/-- What the value of an environment variable stands for. -/
def ofVariable (value : String) : Scalar :=
  if Text.lowercase value = "true" then .bool true
  else if Text.lowercase value = "false" then .bool false
  else
    match integer? value, Number.decimal? value with
    | some n, _ => .int n
    | none, some x => .float x
    | none, none => .text value

end Scalar

end Catena
