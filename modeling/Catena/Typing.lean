import Catena.Scopes
import Catena.Text.Case
import Catena.Value.Display

set_option autoImplicit false

/-!
Types at run time. A type name is either one of the language's own or belongs to a data declaration;
in that case it means what the predicate of the declaration says, which is found under the type's
name in lower case with a question mark.
-/

namespace Catena

/-- The mark that distinguishes an instance from other arrays. -/
def instanceTag : String := "#struct"

/-- Where the fields of an instance start, after the mark and the type. -/
def firstField : Nat := 2

/-- The type of an instance. -/
def Value.instanceType? : Value → Option String
  | .array _ (.sym tag :: .sym type :: _) => if tag = instanceTag then some type else none
  | _ => none

/-- What a predicate says of a value; `none` for operations that are no predicates. -/
def DataAction.test? {V : Type} (action : DataAction V) (v : Value) : Option Bool :=
  match action with
  | .isInstance type => some (v.instanceType? == some type)
  | .isVariant variants =>
    some (match v.instanceType? with
      | some type => variants.contains type
      | none => false)
  | _ => none

/-- The name of the predicate that a type stands for. -/
def predicateName (type : String) : String := Text.lowercase type ++ "?"

/-- The operation that a type name stands for, first looked for among `types`. -/
def predicate? (types active : Scope) (type : String) : Option Value :=
  match types.get? (predicateName type) with
  | some found => some found
  | none => active.get? (predicateName type)

/-- Whether a value has a type. -/
def checkType (types active : Scope) (type : String) (v : Value) : Except RuntimeError Bool :=
  match v.belongsTo? type with
  | some verdict => .ok verdict
  | none =>
    match predicate? types active type with
    | some (.op (.data d) _) =>
      match d.action.test? v with
      | some verdict => .ok verdict
      | none => .error (.unknownType type)
    | _ => .error (.unknownType type)

/-- The only error is that nobody knows the type. -/
theorem checkType_eq_error {types active : Scope} {type : String} {v : Value} {e : RuntimeError}
    (failed : checkType types active type v = .error e) : e = .unknownType type := by
  unfold checkType at failed
  split at failed
  · cases failed
  · split at failed
    · split at failed <;> cases failed
      rfl
    · cases failed
      rfl

/-- A parameter without a type takes every value. -/
def Param.check (p : Param) (types active : Scope) (v : Value) : Except RuntimeError Unit :=
  match p.type with
  | none => .ok ()
  | some type =>
    match checkType types active type v with
    | .ok true => .ok ()
    | .ok false => .error (.parameterMismatch p.name type v)
    | .error e => .error e

end Catena
