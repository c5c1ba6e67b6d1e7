import Catena.Number.Nearest
import Catena.Number.Word

set_option autoImplicit false

/-!
Decimal numerals. Digits are the ASCII ones.
-/

namespace Catena.Number

/-- The number written by decimal digits, most significant first. -/
def ofDigits (digits : List Char) : Nat :=
  digits.foldl (fun n c => 10 * n + (c.toNat - '0'.toNat)) 0

/-- The integer written by digits after an optional minus sign. -/
def ofNumeral : List Char → Int
  | '-' :: digits => -(ofDigits digits : Int)
  | digits => ofDigits digits

/-- The word a numeral stands for, unless it is out of range. -/
def word? (numeral : List Char) : Option Int64 := ofInt? (ofNumeral numeral)

/-- The double nearest to `digits * 10 ^ exponent`. Numbers far beyond the range of doubles are
settled by their magnitude, before any power of ten is computed. -/
def scaled (digits : List Char) (exponent : Int) : Float :=
  let n := ofDigits digits
  let magnitude := (Nat.toDigits 10 n).length + exponent
  if n = 0 ∨ magnitude < -400 then 0.0
  else if 400 < magnitude then 1.0 / 0.0
  else nearest (n * Nat.pow 10 exponent.toNat) (Nat.pow 10 (-exponent).toNat)

/-- The double nearest to `whole.fraction`. -/
def ofPoint (whole fraction : List Char) : Float :=
  scaled (whole ++ fraction) (-fraction.length)

/-- The double nearest to a numeral with a point and an optional minus sign. -/
def double (numeral : List Char) : Float :=
  match numeral with
  | '-' :: rest => -(ofPoint (rest.takeWhile (· != '.')) ((rest.dropWhile (· != '.')).drop 1))
  | rest => ofPoint (rest.takeWhile (· != '.')) ((rest.dropWhile (· != '.')).drop 1)

private def isExponentMark (c : Char) : Bool := c = 'e' || c = 'E'

/-- The exponent that stands after the digits, nothing standing for zero. -/
def exponent? : List Char → Option Int
  | [] => some 0
  | mark :: rest =>
    let numeral :=
      match rest with
      | '+' :: digits => ('+', digits)
      | '-' :: digits => ('-', digits)
      | digits => ('+', digits)
    let (sign, digits) := numeral
    if isExponentMark mark && !digits.isEmpty && digits.all Char.isDigit then
      some (if sign = '-' then -(ofDigits digits : Int) else ofDigits digits)
    else none

/-- An unsigned decimal: digits with an optional point among or around them, then an exponent. -/
def unsignedDecimal? (text : List Char) : Option Float :=
  let whole := text.takeWhile Char.isDigit
  let afterWhole := text.dropWhile Char.isDigit
  let tail :=
    match afterWhole with
    | '.' :: rest => rest
    | _ => []
  let fraction := tail.takeWhile Char.isDigit
  let afterDigits :=
    match afterWhole with
    | '.' :: _ => tail.dropWhile Char.isDigit
    | other => other
  if whole.isEmpty && fraction.isEmpty then none
  else (exponent? afterDigits).map fun e => scaled (whole ++ fraction) (e - fraction.length)

/-- The number a decimal stands for, with the words for what is no finite number. -/
def unsigned? (text : List Char) : Option Float :=
  let word := (String.ofList text).map Char.toLower
  if word = "inf" ∨ word = "infinity" then some (1.0 / 0.0)
  else if word = "nan" then some (0.0 / 0.0)
  else unsignedDecimal? text

/-- The double nearest to a decimal with an optional sign. -/
def decimal? (text : String) : Option Float :=
  match text.toList with
  | '-' :: rest => (unsigned? rest).map (-·)
  | '+' :: rest => unsigned? rest
  | rest => unsigned? rest

end Catena.Number
