import Catena.Machine

set_option autoImplicit false

/-!
Operators that choose, repeat and leave. None of them runs code itself: they push the frames that
stand for the work, or answer the value that is to be invoked next.
-/

namespace Catena

/-- Tests with their actions, from a flat list. -/
def pairUp : List Value → Except RuntimeError (List (Value × Value))
  | test :: action :: rest =>
    if !test.isCallable then .error (.mismatch Primitive.cond.name "quotation pairs" test)
    else if !action.isCallable then .error (.mismatch Primitive.cond.name "quotation pairs" action)
    else
      match pairUp rest with
      | .ok pairs => .ok ((test, action) :: pairs)
      | .error e => .error e
  | _ => .ok []

def readPairs (items : List Value) : Except RuntimeError (List (Value × Value)) :=
  if items.length % 2 = 0 then pairUp items else .error (.unpairedCondition items.length)

namespace Exec

/-- Chooses one of two quotations by a truth value below them; the second quotation is optional. -/
def ifElse : Exec (Option Value) := do
  let first ← popAs Primitive.ifElse.name "a quotation" fun v =>
    if v.isQuotation then some v else none
  if (← get).operands.topIs Value.isQuotation then
    let consequent ← pop
    if ← popBool Primitive.ifElse.name then pure (some consequent) else pure (some first)
  else if ← popBool Primitive.ifElse.name then pure (some first)
  else pure none

/-- The pairs of tests and actions on top of the stack, in the array that holds them. -/
def popPairs (operator : String) : Exec (Value × List (Value × Value)) := do
  let v ← pop
  match v with
  | .array _ items => pure (v, ← ofExcept (readPairs items))
  | other => fail (.mismatch operator "an array of pairs" other)

def cond : Exec Unit := do
  let found ← popPairs Primitive.cond.name
  pushFrame (.condTest found.2)

def loop : Exec Unit := do
  pushFrame (.loop (← popBody Primitive.loop.name))

/-- What to iterate over. A range is given by its two ends. -/
def popSource (operator : String) : Exec Source := do
  match ← pop with
  | .int stop => return .range (← popInt operator) stop
  | .array _ items => pure (.items items)
  | .str text => pure (.chars text.toList)
  | other => fail (.mismatch operator "a range, array or string" other)

def iterate (withIndex : Bool) : Exec Unit := do
  let operator := (Primitive.iterate withIndex).name
  let body ← popBody operator
  let source ← popSource operator
  pushFrame (.iterate source 0 withIndex body)

def breakIf : Exec Unit := do
  if ← popBool Primitive.breakIf.name then throw .break

/-- The closure to go on with, given directly or by name. -/
def tailCall : Exec Unit := do
  match ← pop with
  | .closure c => throw (.tailCall c)
  | .sym name =>
    match (← get).scopes.get? name with
    | some (.closure c) => throw (.tailCall c)
    | some other => fail (.mismatch Primitive.tailCall.name "a closure" other)
    | none => fail (.unknownReference name)
  | other => fail (.mismatch Primitive.tailCall.name "a closure" other)

/-- Marks where errors of the invoked value end. -/
def attempt : Exec (Option Value) := do
  let body ← popCallable Primitive.attempt.name
  pushFrame (.attempt (← get).operands.count)
  pure (some body)

def raise : Exec Unit := do
  fail (.user (← popStr Primitive.raise.name))

def sleep : Exec Unit := do
  let milliseconds ← popInt Primitive.sleep.name
  if milliseconds.toInt < 0 then
    fail (.mismatch Primitive.sleep.name "a non-negative Int" (.int milliseconds))
  else
    throw (.await ⟨Primitive.sleep.name, .timer milliseconds.toInt.toNat, some .silent⟩)

end Exec

end Catena
