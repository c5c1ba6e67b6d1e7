import Catena.Number.Remainder
import Catena.Number.Word
import Catena.Value.Display

set_option autoImplicit false

/-!
Arithmetic and comparison. Two integers stay integers and never wrap around; a float on either side
makes both floats.
-/

namespace Catena

/-- Two numbers brought to one kind. -/
inductive NumberPair where
  | ints (a b : Int64)
  | floats (a b : Float)

/-- The first of two values that keeps them from being worked on together. -/
def offender (fits : Value → Bool) (a b : Value) : Value :=
  if fits a then b else a

def NumberPair.read (operator : String) : Value → Value → Except RuntimeError NumberPair
  | .int a, .int b => .ok (.ints a b)
  | .int a, .float b => .ok (.floats a.toFloat b)
  | .float a, .int b => .ok (.floats a b.toFloat)
  | .float a, .float b => .ok (.floats a b)
  | a, b => .error (.mismatch operator "Num" (offender Value.isNumber a b))

namespace ArithmeticOp

/-- The result as a word, if it fits one. -/
def onWords? : ArithmeticOp → Int64 → Int64 → Option Int64
  | .add => Number.add?
  | .sub => Number.sub?
  | .mul => Number.mul?
  | .div => Number.div?
  | .rem => Number.rem?

def onFloats : ArithmeticOp → Float → Float → Float
  | .add => (· + ·)
  | .sub => (· - ·)
  | .mul => (· * ·)
  | .div => (· / ·)
  | .rem => Number.floatRem

def divides : ArithmeticOp → Bool
  | .div | .rem => true
  | _ => false

def onInts (op : ArithmeticOp) (a b : Int64) : Except RuntimeError Int64 :=
  if op.divides && b == 0 then .error .divisionByZero
  else
    match op.onWords? a b with
    | some n => .ok n
    | none => .error (.overflow op.name)

def apply (op : ArithmeticOp) (a b : Value) : Except RuntimeError Value :=
  match NumberPair.read op.name a b with
  | .ok (.ints a b) => (op.onInts a b).map .int
  | .ok (.floats a b) => .ok (.float (op.onFloats a b))
  | .error e => .error e

end ArithmeticOp

def negate : Value → Except RuntimeError Value
  | .int n =>
    match Number.neg? n with
    | some n => .ok (.int n)
    | none => .error (.overflow Primitive.neg.name)
  | .float x => .ok (.float (-x))
  | other => .error (.mismatch Primitive.neg.name "Num" other)

/-- A NaN has no place in the order. -/
def compareFloats (a b : Float) : Option Ordering :=
  if a < b then some .lt else if a == b then some .eq else if b < a then some .gt else none

namespace Comparison

def accepts : Comparison → Ordering → Bool
  | .lt => Ordering.isLT
  | .gt => Ordering.isGT
  | .le => Ordering.isLE
  | .ge => Ordering.isGE

def isOrdered : Value → Bool
  | .int _ | .float _ | .str _ => true
  | _ => false

/-- How two values are ordered. Texts are ordered by their characters. -/
def order (operator : String) : Value → Value → Except RuntimeError (Option Ordering)
  | .str a, .str b => .ok (some (compare a b))
  | .int a, .int b => .ok (some (compare a.toInt b.toInt))
  | .int a, .float b => .ok (compareFloats a.toFloat b)
  | .float a, .int b => .ok (compareFloats a b.toFloat)
  | .float a, .float b => .ok (compareFloats a b)
  | a, b => .error (.mismatch operator "Num or Str" (offender isOrdered a b))

def apply (c : Comparison) (a b : Value) : Except RuntimeError Value :=
  (order c.name a b).map fun found => .bool (found.any c.accepts)

end Comparison

/-- The width of the band in which numbers count as close, relative to the larger one. -/
def closeness : Float := 1e-9

/-- The larger of two numbers; a NaN does not count. -/
def larger (a b : Float) : Float :=
  if a.isNaN then b else if b.isNaN then a else if a < b then b else a

def areClose (a b : Float) : Bool :=
  (a - b).abs ≤ closeness * larger (larger a.abs b.abs) 1.0

def asFloat (operator : String) : Value → Except RuntimeError Float
  | .int n => .ok n.toFloat
  | .float x => .ok x
  | other => .error (.mismatch operator "Num" other)

end Catena
