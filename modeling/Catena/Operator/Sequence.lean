import Catena.Value.Display

set_option autoImplicit false

/-!
Arrays and texts as sequences. A new array gets the identity `id`.
-/

namespace Catena

def Value.append (id : Nat) : Value → Value → Except RuntimeError Value
  | .array _ items, v => .ok (.array id (items ++ [v]))
  | other, _ => .error (.mismatch Primitive.append.name "Arr" other)

def Value.length : Value → Except RuntimeError Value
  | .array _ items => .ok (.int (Int64.ofNat items.length))
  | .quote _ code => .ok (.int (Int64.ofNat code.length))
  | .str text => .ok (.int (Int64.ofNat text.length))
  | other => .error (.mismatch Primitive.length.name "Arr or Str" other)

/-- The element at an index that counts from zero. -/
def elementAt? {α : Type} (items : List α) (index : Int64) : Option α :=
  if index.toInt < 0 then none else items[index.toInt.toNat]?

def Value.nth (index : Int64) : Value → Except RuntimeError Value
  | .array _ items =>
    match elementAt? items index with
    | some v => .ok v
    | none => .error (.indexOutOfBounds index items.length)
  | .str text =>
    match elementAt? text.toList index with
    | some c => .ok (.str c.toString)
    | none => .error (.indexOutOfBounds index text.length)
  | other => .error (.mismatch Primitive.nth.name "Arr or Str" other)

def Value.isSequence : Value → Bool
  | .array .. | .str _ => true
  | _ => false

def Value.concat (id : Nat) : Value → Value → Except RuntimeError Value
  | .array _ a, .array _ b => .ok (.array id (a ++ b))
  | .str a, .str b => .ok (.str (a ++ b))
  | a, b =>
    .error (.mismatch Primitive.concat.name "two arrays or two strings"
      (if a.isSequence then b else a))

end Catena
