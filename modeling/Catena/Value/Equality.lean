import Catena.Value.Basic

set_option autoImplicit false

/-!
Equality of values. Numbers are compared across kinds, operations and names by name alone, closures
by identity. Arrays and quotations are compared element by element; inside a container that is
compared with itself a NaN equals itself.
-/

namespace Catena.Value

mutual

/-- Equality of values that are (`shared`) or are not parts of one and the same container. -/
def equalIn (shared : Bool) : Value → Value → Bool
  | .int a, .int b => a == b
  | .float a, .float b => a == b || (shared && a.isNaN && b.isNaN)
  | .int a, .float b => a.toFloat == b
  | .float a, .int b => b.toFloat == a
  | .bool a, .bool b => a == b
  | .str a, .str b => a == b
  | .sym a, .sym b => a == b
  | .nil, .nil => true
  | .array i a, .array j b => equalItems (shared || i == j) a b
  | .quote i a, .quote j b => equalItems (shared || i == j) a b
  | .closure a, .closure b => a.id == b.id
  | .op a _, .op b _ => a.name == b.name
  | .signature a, .signature b => a == b
  | .marker a, .marker b => a == b
  | .ref a _, .ref b _ => a == b
  | .error a, .error b => a == b
  | _, _ => false

def equalItems (shared : Bool) : List Value → List Value → Bool
  | [], [] => true
  | a :: as, b :: bs => equalIn shared a b && equalItems shared as bs
  | _, _ => false

end

instance : BEq Value := ⟨equalIn false⟩

end Catena.Value
