import Catena.Toml.Basic

set_option autoImplicit false

/-!
Trees of settings that are put together from several places. Every setting knows the place it was
read from, which complaints about it name; what is only made up on the way to another setting comes
from nowhere.

Names do not depend on case: they are kept in lower case.
-/

namespace Catena

inductive Setting where
  /-- Stands where a setting is left open. -/
  | nothing
  | scalar (place : Option String) (value : Scalar)
  | list (place : Option String) (items : List Setting)
  | table (place : Option String) (entries : Bindings Setting)

/-- What is found where something else is expected. -/
structure Mismatch where
  found : String
  expected : String
  deriving DecidableEq, Repr

namespace Setting

instance : Inhabited Setting := ⟨.nothing⟩

def emptyTable : Setting := .table none .empty

def place? : Setting → Option String
  | .nothing => none
  | .scalar place _ => place
  | .list place _ => place
  | .table place _ => place

/-- The setting as complaints show it. -/
def describe : Setting → String
  | .nothing => "unit value"
  | .scalar _ value => value.describe
  | .list .. => "sequence"
  | .table .. => "map"

def count : Setting → Except Mismatch Nat
  | .scalar _ (.int n) =>
    match (Scalar.int n).count? with
    | some count => .ok count
    | none =>
      .error ⟨"64-bit " ++ (Scalar.int n).describe, "an unsigned 64 bit or less integer"⟩
  | .scalar _ value =>
    match value.count? with
    | some count => .ok count
    | none => .error ⟨value.describe, "an integer"⟩
  | other => .error ⟨other.describe, "an integer"⟩

/-- A word that is no switch is shown in lower case, as it was compared. -/
def switch : Setting → Except Mismatch Bool
  | .scalar _ (.text word) =>
    match (Scalar.text word).switch? with
    | some b => .ok b
    | none => .error ⟨(Scalar.text (Text.lowercase word)).describe, "a boolean"⟩
  | .scalar _ value =>
    match value.switch? with
    | some b => .ok b
    | none => .error ⟨value.describe, "a boolean"⟩
  | other => .error ⟨other.describe, "a boolean"⟩

mutual

/-- The settings of a file. -/
def ofToml (place : Option String) : Toml → Setting
  | .scalar value => .scalar place value
  | .array _ items => .list place (ofItems place items)
  | .table _ ⟨entries⟩ => .table place ⟨ofEntries place entries⟩

def ofItems (place : Option String) : List Toml → List Setting
  | [] => []
  | item :: rest => ofToml place item :: ofItems place rest

def ofEntries (place : Option String) : List (String × Toml) → List (String × Setting)
  | [] => []
  | (name, value) :: rest => (name, ofToml place value) :: ofEntries place rest

end

/-- The setting made a table, empty if it was none. -/
def asTable : Setting → Option String × Bindings Setting
  | .table place entries => (place, entries)
  | _ => (none, .empty)

/-- The setting made a list, empty if it was none. -/
def asList : Setting → Option String × List Setting
  | .list place items => (place, items)
  | _ => (none, [])

/-- The entry of a name in a table. -/
def child? (s : Setting) (name : String) : Option Setting :=
  s.asTable.2.get? (Text.lowercase name)

/-- Replaces the entry of a name. -/
def insert (s : Setting) (name : String) (value : Setting) : Setting :=
  let (place, entries) := s.asTable
  .table place (entries.insert (Text.lowercase name) value)

mutual

/-- Puts a setting under a name. A table is merged into what is there already, entry by entry, so
that an empty table changes nothing. -/
def put (name : String) : (value : Setting) → (target : Setting) → Setting
  | .table _ ⟨entries⟩, target =>
    target.insert name (putAll entries ((target.child? name).getD emptyTable))
  | value, target => target.insert name value

def putAll : List (String × Setting) → (target : Setting) → Setting
  | [], target => target
  | (name, value) :: rest, target => putAll rest (put name value target)

end

end Setting

end Catena
