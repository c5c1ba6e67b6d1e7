import Catena.Value.Basic

set_option autoImplicit false

/-!
What a loop runs over: the integers of a range, the elements of an array or the characters of a
text.
-/

namespace Catena

inductive Source where
  | range (start stop : Int64)
  | items (values : List Value)
  | chars (text : List Char)

namespace Source

def length : Source → Nat
  | .range start stop => (stop.toInt - start.toInt).toNat
  | .items values => values.length
  | .chars text => text.length

/-- The element at an index below the length. Adding a wide index to the start of a range may wrap
around twice, which cancels out. -/
def element : Source → Nat → Value
  | .range start _, index => .int (start + Int64.ofNat index)
  | .items values, index => values.getD index .nil
  | .chars text, index => .str (text.getD index ' ').toString

end Source

end Catena
