set_option autoImplicit false

/-!
Integers are 64-bit words. A result that does not fit a word is no result.
-/

namespace Catena.Number

def FitsWord (n : Int) : Prop := -0x8000000000000000 ≤ n ∧ n < 0x8000000000000000

instance (n : Int) : Decidable (FitsWord n) := inferInstanceAs (Decidable (_ ∧ _))

/-- The word with this value. -/
def ofInt? (n : Int) : Option Int64 :=
  if FitsWord n then some (Int64.ofInt n) else none

def add? (a b : Int64) : Option Int64 := ofInt? (a.toInt + b.toInt)

def sub? (a b : Int64) : Option Int64 := ofInt? (a.toInt - b.toInt)

def mul? (a b : Int64) : Option Int64 := ofInt? (a.toInt * b.toInt)

def neg? (a : Int64) : Option Int64 := ofInt? (-a.toInt)

/-- The quotient, cut off toward zero. -/
def div? (a b : Int64) : Option Int64 := ofInt? (a.toInt.tdiv b.toInt)

/-- What the quotient leaves over, with the sign of `a`. There is none without a quotient. -/
def rem? (a b : Int64) : Option Int64 :=
  match div? a b with
  | some _ => ofInt? (a.toInt.tmod b.toInt)
  | none => none

end Catena.Number
