import Catena.Value.Display

set_option autoImplicit false

/-!
Reading a signature off the values between `(` and `)`: names, each with an optional type after it,
and after an arrow the types of the results.
-/

namespace Catena.Signature

/-- The types after the arrow. -/
def returnTypes : List Value → Except RuntimeError (List String)
  | [] => .ok []
  | .sym type :: rest =>
    match returnTypes rest with
    | .ok types => .ok (type :: types)
    | .error e => .error e
  | other :: _ => .error (.notAReturnType other)

/-- The name that a value declares as a parameter. A name that is also an operator arrives as that
operator. -/
def parameterName? : Value → Option String
  | .ref name _ => some name
  | .op o _ => some o.name
  | _ => none

/-- Reads a list whose parameters so far are `seen`, the latest first. -/
def readAfter (seen : List Param) : List Value → Except RuntimeError Signature
  | [] => .ok ⟨seen.reverse, none⟩
  | .sym type :: rest =>
    match seen with
    | ⟨name, none⟩ :: earlier => readAfter (⟨name, some type⟩ :: earlier) rest
    | _ => .error (.danglingType type)
  | .marker .arrow :: rest =>
    match returnTypes rest with
    | .ok types => .ok ⟨seen.reverse, some types⟩
    | .error e => .error e
  | item :: rest =>
    match parameterName? item with
    | some name => readAfter (⟨name, none⟩ :: seen) rest
    | none => .error (.notAParameter item)

def ofValues (items : List Value) : Except RuntimeError Signature :=
  readAfter [] items

end Catena.Signature
