import Catena.Scalar
import Catena.Toml.Text

set_option autoImplicit false

/-!
Numbers, truth values and dates of TOML. Dates and times count as texts in their usual form.
-/

namespace Catena.Toml

/-- Digits with single underscores between them, which are left out. -/
def digits? (isDigit : Char → Bool) : List Char → Option (List Char)
  | [] => none
  | [c] => if isDigit c then some [c] else none
  | c :: '_' :: rest => if isDigit c then (digits? isDigit rest).map (c :: ·) else none
  | c :: rest => if isDigit c then (digits? isDigit rest).map (c :: ·) else none

/-- Decimal digits without a zero in front. -/
def decimal? (cs : List Char) : Option (List Char) :=
  match digits? Char.isDigit cs with
  | some ('0' :: _ :: _) => none
  | other => other

private def sign (cs : List Char) : Bool × List Char :=
  match cs with
  | '-' :: rest => (true, rest)
  | '+' :: rest => (false, rest)
  | rest => (false, rest)

private def inBase? (base : Nat) (cs : List Char) : Option Int64 := do
  let digits ← digits? (fun c => (hexValue? c).any (· < base)) cs
  Number.ofInt? (digits.foldl (fun n c => base * n + (hexValue? c).getD 0) 0 : Nat)

def integer? (word : List Char) : Option Int64 :=
  match word with
  | '0' :: 'x' :: rest => inBase? 16 rest
  | '0' :: 'o' :: rest => inBase? 8 rest
  | '0' :: 'b' :: rest => inBase? 2 rest
  | _ => do
    let (negative, rest) := sign word
    let n : Int := Number.ofDigits (← decimal? rest)
    Number.ofInt? (if negative then -n else n)

private def isMark (c : Char) : Bool := c = 'e' || c = 'E'

/-- The number that digits with a fraction or an exponent stand for. -/
def fractional? (word : List Char) : Option Float := do
  let mantissa := word.takeWhile (!isMark ·)
  let wholePart := mantissa.takeWhile (· ≠ '.')
  let whole ← decimal? wholePart
  let fraction ←
    match mantissa.dropWhile (· ≠ '.') with
    | [] => some []
    | _ :: tail => digits? Char.isDigit tail
  let exponent ←
    match word.dropWhile (!isMark ·) with
    | [] => if wholePart.length = mantissa.length then none else some 0
    | _ :: tail => do
      let (below, digits) := sign tail
      let e : Int := Number.ofDigits (← digits? Char.isDigit digits)
      some (if below then -e else e)
  some (Number.scaled (whole ++ fraction) (exponent - fraction.length))

/-- Numbers with a fraction or an exponent, and the words for those that are not finite. A positive
number must not be too large to be finite. -/
def float? (word : List Char) : Option Float := do
  let (negative, rest) := sign word
  let magnitude ←
    if rest = "inf".toList then some (1.0 / 0.0)
    else if rest = "nan".toList then some (0.0 / 0.0)
    else do
      let x ← fractional? rest
      if negative || x.isFinite then some x else none
  some (if negative then -magnitude else magnitude)

private def twoDigits? (least greatest : Nat) (a b : Char) : Option Nat :=
  let n := Number.ofDigits [a, b]
  if a.isDigit && b.isDigit && least ≤ n && n ≤ greatest then some n else none

private def daysIn (year month : Nat) : Nat :=
  if month = 2 then
    if year % 4 = 0 ∧ (year % 100 ≠ 0 ∨ year % 400 = 0) then 29 else 28
  else if month = 4 ∨ month = 6 ∨ month = 9 ∨ month = 11 then 30
  else 31

/-- A day that the calendar has. -/
def date? : List Char → Option (List Char × List Char)
  | y₁ :: y₂ :: y₃ :: y₄ :: '-' :: m₁ :: m₂ :: '-' :: d₁ :: d₂ :: rest => do
    let year := [y₁, y₂, y₃, y₄]
    if year.all Char.isDigit then
      let month ← twoDigits? 1 12 m₁ m₂
      let _ ← twoDigits? 1 (daysIn (Number.ofDigits year) month) d₁ d₂
      some (year ++ ['-', m₁, m₂, '-', d₁, d₂], rest)
    else none
  | _ => none

/-- Nine digits of a fraction count, and no zeros at its end. -/
private def fractionText (digits : List Char) : List Char :=
  let kept := ((digits.take 9).reverse.dropWhile (· = '0')).reverse
  if kept.isEmpty then [] else '.' :: kept

def time? : List Char → Option (List Char × List Char)
  | h₁ :: h₂ :: ':' :: m₁ :: m₂ :: ':' :: s₁ :: s₂ :: rest => do
    let _ ← twoDigits? 0 23 h₁ h₂
    let _ ← twoDigits? 0 59 m₁ m₂
    let _ ← twoDigits? 0 60 s₁ s₂
    let text := [h₁, h₂, ':', m₁, m₂, ':', s₁, s₂]
    match rest with
    | '.' :: tail =>
      let digits := tail.takeWhile Char.isDigit
      if digits.isEmpty then some (text, rest)
      else some (text ++ fractionText digits, tail.dropWhile Char.isDigit)
    | _ => some (text, rest)
  | _ => none

/-- The distance of a time from that of Greenwich, if there is one. -/
def offset : List Char → List Char × List Char
  | 'Z' :: rest => (['Z'], rest)
  | 'z' :: rest => (['Z'], rest)
  | s :: h₁ :: h₂ :: ':' :: m₁ :: m₂ :: rest =>
    let whole := s :: h₁ :: h₂ :: ':' :: m₁ :: m₂ :: rest
    if s = '+' || s = '-' then
      match twoDigits? 0 23 h₁ h₂, twoDigits? 0 59 m₁ m₂ with
      | some hours, some minutes =>
        let shown := if hours + minutes = 0 then '+' else s
        ([shown, h₁, h₂, ':', m₁, m₂], rest)
      | _, _ => ([], whole)
    else ([], whole)
  | rest => ([], rest)

/-- A date, a time, or a date with a time, which alone may have an offset. -/
def moment? (cs : List Char) : Option (String × List Char) :=
  match date? cs with
  | none => (time? cs).map fun (text, rest) => (String.ofList text, rest)
  | some (date, rest) =>
    let afterMark :=
      match rest with
      | c :: tail => if c = 'T' || c = 't' || c = ' ' then time? tail else none
      | [] => none
    match afterMark with
    | none => some (String.ofList date, rest)
    | some (time, rest) =>
      let (distance, rest) := offset rest
      some (String.ofList (date ++ 'T' :: time ++ distance), rest)

private def word? (word : List Char) : Option Scalar :=
  if word = "true".toList then some (.bool true)
  else if word = "false".toList then some (.bool false)
  else
    match integer? word, float? word with
    | some n, _ => some (.int n)
    | none, some x => some (.float x)
    | none, none => none

private def endsWord (c : Char) : Bool :=
  isBlank c || c = '\n' || c = '\r' || c = ',' || c = ']' || c = '}' || c = '#'

def scalar? (cs : List Char) : Option (Scalar × List Char) :=
  match text? cs, moment? cs with
  | some (text, rest), _ => some (.text text, rest)
  | none, some (text, rest) => some (.text text, rest)
  | none, none => do
    let word := cs.takeWhile (!endsWord ·)
    some (← word? word, cs.drop word.length)

end Catena.Toml
