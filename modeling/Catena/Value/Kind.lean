import Catena.Value.Basic

set_option autoImplicit false

/-!
The kinds of values, and the type names that stand for sets of kinds.
-/

namespace Catena.Value

def typeName : Value → String
  | .int _ => "Int"
  | .float _ => "Flt"
  | .bool _ => "Bool"
  | .str _ => "Str"
  | .sym _ => "Sym"
  | .nil => "Nil"
  | .array .. => "Arr"
  | .quote .. => "ExeArr"
  | .closure _ => "Lam"
  | .op .. => "Op"
  | .signature _ => "Params"
  | .marker _ => "Marker"
  | .ref .. => "Ref"
  | .error _ => "Err"

def isNil : Value → Bool
  | .nil => true
  | _ => false

def isError : Value → Bool
  | .error _ => true
  | _ => false

def isNumber : Value → Bool
  | .int _ | .float _ => true
  | _ => false

/-- Code that can be handed around. -/
def isQuotation : Value → Bool
  | .quote .. | .closure _ => true
  | _ => false

/-- Everything that can be invoked. -/
def isCallable : Value → Bool
  | .quote .. | .closure _ | .op .. => true
  | _ => false

def asBool? : Value → Option Bool
  | .bool b => some b
  | _ => none

/-- The type names that admit just the values of that kind. -/
def plainTypes : List String :=
  ["Int", "Flt", "Bool", "Str", "Sym", "Nil", "Arr", "Lam", "Op", "Params", "Err"]

/-- Whether the value belongs to a type known to the language; `none` for all other type names.
`Nil` does not belong to `Any`. -/
def belongsTo? (v : Value) (type : String) : Option Bool :=
  if type = "Any" then some !v.isNil
  else if type = "Num" then some v.isNumber
  else if type = "Quot" ∨ type = "ExeArr" then some v.isQuotation
  else if type = "Fn" then some v.isCallable
  else if type ∈ plainTypes then some (v.typeName == type)
  else none

end Catena.Value
