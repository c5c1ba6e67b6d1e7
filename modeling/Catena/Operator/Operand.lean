import Catena.Machine
import Catena.Operator.Numeric
import Catena.Operator.Sequence
import Catena.Value.Equality

set_option autoImplicit false

/-!
Operators that only rearrange operands or compute a new one. Operands are taken from the top and are
gone even if a later one is missing or does not fit.
-/

namespace Catena

def Value.errorMessage : Value → Except RuntimeError Value
  | .error e => .ok (.str e.message)
  | other => .error (.mismatch Primitive.errorMessage.name "Err" other)

/-- What an assertion finds of two operands. -/
def AssertionKind.verdict (kind : AssertionKind) (left right : Value) : Except RuntimeError Bool :=
  match kind with
  | .equals => .ok (left == right)
  | .notEquals => .ok (left != right)
  | .approxEquals => do
    return areClose (← asFloat kind.operator left) (← asFloat kind.operator right)
  | .notApproxEquals => do
    return !areClose (← asFloat kind.operator left) (← asFloat kind.operator right)

namespace Exec

/-- Replaces the top operand. -/
def unary (f : Value → Except RuntimeError Value) : Exec Unit := do
  let v ← pop
  push (← ofExcept (f v))

/-- Replaces the two top operands. -/
def binary (f : Value → Value → Except RuntimeError Value) : Exec Unit := do
  let b ← pop
  let a ← pop
  push (← ofExcept (f a b))

/-- Replaces two truth values; the upper one is looked at before the lower one is taken. -/
def logical (p : Primitive) (f : Bool → Bool → Bool) : Exec Unit := do
  let b ← popBool p.name
  let a ← popBool p.name
  push (.bool (f a b))

def dup : Exec Unit := do
  push (← peek 0)

def drop : Exec Unit := do
  let _ ← pop

def swap : Exec Unit := do
  let b ← pop
  let a ← pop
  push b
  push a

def copySecond : Exec Unit := do
  push (← peek 1)

/-- Brings the third operand to the top. -/
def rot : Exec Unit := do
  let c ← pop
  let b ← pop
  let a ← pop
  push b
  push c
  push a

/-- Takes every operand above the floor. -/
def clear : Exec Unit :=
  modify fun m => { m with operands := m.operands.truncate m.operands.floor }

def depth : Exec Unit := do
  push (.int (Int64.ofNat (← get).operands.accessible))

def append : Exec Unit := do
  let id ← fresh
  binary (Value.append id)

def concat : Exec Unit := do
  let id ← fresh
  binary (Value.concat id)

def nth : Exec Unit := do
  let index ← popInt Primitive.nth.name
  unary (Value.nth index)

/-- Counts an assertion, if assertions are counted. -/
def record (kind : AssertionKind) (passed : Bool) (operands : List Value) : Exec Unit :=
  modify fun m =>
    { m with report := m.report.map fun r => r.record passed ⟨kind, operands, m.origin⟩ }

/-- Takes two operands and counts whether the assertion holds of them. -/
def assertion (kind : AssertionKind) : Exec Unit := do
  let right ← pop
  let left ← pop
  let passed ← ofExcept (kind.verdict left right)
  record kind passed [left, right]

end Exec

end Catena
