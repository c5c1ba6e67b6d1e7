import Catena.Number.Layout
import Catena.Text.Quoted
import Catena.Value.Kind

set_option autoImplicit false

/-!
Values as text. Values that can be written in a program are shown the way they are written there.
-/

namespace Catena

def Marker.display : Marker → String
  | .arrayOpen => "["
  | .arrayClose => "]"
  | .quoteOpen => "\x7b"
  | .paramsOpen => "("
  | .arrow => "->"

/-- Whole numbers show all their digits and `.0`, others the fewest that read back. There is never
an exponent. -/
def floatDisplay : Number.Layout where
  positional _ := true
  exactWhole := true
  plus := ""
  tie := .up
  nan := "NaN"
  infinity := "inf"

def Closure.display {V : Type} (c : Closure V) : String :=
  match c.name with
  | some name => s!"<fun {name}>"
  | none => "<lam>"

namespace Value

mutual

def display : Value → String
  | .int n => toString n.toInt
  | .float x => floatDisplay.write x
  | .bool true => "true"
  | .bool false => "false"
  | .str text => Text.quoted text
  | .sym name => "'" ++ name
  | .nil => "nil"
  | .array _ items => "[" ++ displayItems ", " items ++ "]"
  | .quote _ code => "\x7b " ++ displayItems " " code ++ " \x7d"
  | .closure c => c.display
  | .op o _ => o.name
  | .signature s => s.display
  | .marker m => m.display
  | .ref name _ => name
  | .error e => s!"<error: {e.display}>"

def displayItems (separator : String) : List Value → String
  | [] => ""
  | [item] => display item
  | item :: rest => display item ++ separator ++ displayItems separator rest

end

/-- The value with the name of its kind. -/
def inspect (v : Value) : String :=
  s!"{v.typeName}({v.display})"

end Value

namespace RuntimeError

/-! The causes that show the value they complain about. -/

/-- A value as complaints show it. -/
def culprit (v : Value) : String :=
  s!"{v.typeName} {v.display}"

def mismatch (operator expected : String) (got : Value) : RuntimeError :=
  .typeMismatch s!"`{operator}` expects {expected}, got {culprit got}"

def notInvocable (got : Value) : RuntimeError :=
  .typeMismatch s!"cannot invoke {culprit got}"

def parameterMismatch (name type : String) (got : Value) : RuntimeError :=
  .typeMismatch s!"parameter `{name}` expects {type}, got {culprit got}"

def returnMismatch (position : Nat) (type : String) (got : Value) : RuntimeError :=
  .typeMismatch s!"return value {position} expects {type}, got {culprit got}"

def fieldMismatch (field : Field) (type : String) (got : Value) : RuntimeError :=
  .typeMismatch s!"field `{field.name}` of {field.owner} expects {type}, got {culprit got}"

def conditionMismatch (got : Value) : RuntimeError :=
  .typeMismatch s!"cond condition must produce Bool, got {culprit got}"

def notAReturnType (got : Value) : RuntimeError :=
  .typeMismatch s!"return list expects type names, got {got.display}"

def notAParameter (got : Value) : RuntimeError :=
  .typeMismatch s!"parameter list expects names, got {got.display}"

def notAVariantName (union : String) (got : Value) : RuntimeError :=
  .conflict s!"union `{union}` expects a variant name, got {got.display}"

end RuntimeError

end Catena
