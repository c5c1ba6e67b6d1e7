import Catena.Origin

set_option autoImplicit false

/-!
What can go wrong while a program runs. A raised error is one of a few kinds; most kinds carry the
words that describe the cause. Programs can catch errors, compare them and read their message.
-/

namespace Catena

inductive RuntimeError where
  | stackEmpty
  /-- The operands are there, but below the floor of the running activation. -/
  | stackOutOfRange
  | unknownReference (name : String)
  | typeMismatch (text : String)
  | arity (text : String)
  | controlFlow (text : String)
  | conflict (text : String)
  | unbalanced (text : String)
  | arithmetic (text : String)
  /-- Raised by the program itself. -/
  | user (text : String)
  deriving DecidableEq, Repr

namespace RuntimeError

def message : RuntimeError → String
  | .stackEmpty => "stack is empty"
  | .stackOutOfRange => "stack access is out of range"
  | .unknownReference name => s!"unknown reference `{name}`"
  | .typeMismatch text => text
  | .arity text => text
  | .controlFlow text => text
  | .conflict text => text
  | .unbalanced text => text
  | .arithmetic text => text
  | .user text => text

/-! The causes that are described without showing a value. -/

private def plural (n : Nat) : String :=
  if n = 1 then "" else "s"

def unknownType (name : String) : RuntimeError :=
  .typeMismatch s!"unknown type `{name}`"

def tooFewArguments (wanted available : Nat) : RuntimeError :=
  let verb := if available = 1 then "is" else "are"
  .arity s!"expected {wanted} argument{plural wanted} but only {available} {verb} available"

def tooFewReturns (wanted produced : Nat) : RuntimeError :=
  let verb := if produced = 1 then "was" else "were"
  .arity s!"expected {wanted} return value{plural wanted} but only {produced} {verb} produced"

def tooManyReturns (wanted produced : Nat) : RuntimeError :=
  .arity s!"expected {wanted} return value{plural wanted} but {produced} were left on the stack"

def unpairedCondition (count : Nat) : RuntimeError :=
  .arity s!"cond expects condition/action pairs, got {count} element{plural count}"

def updateCount (type field : String) (left : Nat) : RuntimeError :=
  .arity s!"update of `{type}` field `{field}` must leave exactly 1 value, left {left}"

def depthExceeded : RuntimeError :=
  .controlFlow "call depth limit exceeded"

def breakOutsideLoop : RuntimeError :=
  .controlFlow "operator can only be used in a loop"

def tailCallOutsideFunction : RuntimeError :=
  .controlFlow "tailcall can only be used in a function"

def unmatched (closing : Char) : RuntimeError :=
  .unbalanced s!"unmatched `{closing}`"

def unclosed : RuntimeError :=
  .unbalanced "unclosed quotation or parameter list"

def overflow (operator : String) : RuntimeError :=
  .arithmetic s!"integer overflow in `{operator}`"

def divisionByZero : RuntimeError :=
  .arithmetic "division by zero"

def indexOutOfBounds (index : Int64) (length : Nat) : RuntimeError :=
  .typeMismatch s!"index {index.toInt} is out of bounds for length {length}"

def danglingType (type : String) : RuntimeError :=
  .typeMismatch s!"type `{type}` does not follow a parameter name"

def redefinesBuiltin (name : String) : RuntimeError :=
  .conflict s!"cannot redefine builtin `{name}`"

def shadowsBuiltin (declaration name : String) : RuntimeError :=
  .conflict s!"datadef `{declaration}` would redefine builtin `{name}`"

def uncapitalised (type : String) : RuntimeError :=
  .conflict s!"type name `{type}` must start with an uppercase letter"

def fieldsReturn (type : String) : RuntimeError :=
  .conflict s!"fields of `{type}` cannot declare return types"

def repeatedField (type field : String) : RuntimeError :=
  .conflict s!"field `{field}` of `{type}` is declared twice"

def repeatedVariant (union variant : String) : RuntimeError :=
  .conflict s!"union `{union}` declares `{variant}` twice"

def unpairedVariants (union : String) : RuntimeError :=
  .conflict s!"union `{union}` expects variant name and field list pairs"

def notAFieldList (type found : String) : RuntimeError :=
  .conflict s!"datadef `{type}` expects a field list, got {found}"

end RuntimeError

/-- An error with the place of the code that raised it, if there is one. -/
structure LocatedError where
  error : RuntimeError
  origin : Option Origin
  deriving DecidableEq, Repr

namespace LocatedError

def message (e : LocatedError) : String := e.error.message

def display (e : LocatedError) : String :=
  match e.origin with
  | some origin => s!"{e.message} (at {origin.display})"
  | none => e.message

end LocatedError

end Catena
