import Catena.Bindings
import Catena.Scalar

set_option autoImplicit false

/-!
TOML values, and which tables may still grow. A key is given at most once and a table has at most
one header. A table that was written inline is complete. A table that dotted keys brought up takes
more dotted keys, but no header; one that was only named on the way to another table may still get
its header.
-/

namespace Catena

/-- How a table came about. -/
inductive TableForm where
  | inline
  /-- By a header of its own. -/
  | headed
  /-- By the header of a table below it. -/
  | implied
  /-- By a dotted key. -/
  | dotted
  deriving DecidableEq, Repr

/-- How an array came about. -/
inductive ArrayForm where
  | inline
  /-- By headers in double brackets, each of which adds a table. -/
  | headed
  deriving DecidableEq, Repr

inductive Toml where
  | scalar (value : Scalar)
  | array (form : ArrayForm) (items : List Toml)
  | table (form : TableForm) (entries : Bindings Toml)

namespace Toml

instance : Inhabited Toml := ⟨.scalar default⟩

/-- Adds a value under a dotted key. The tables on the way must be open to dotted keys, and the last
of them must be one that dotted keys brought up. -/
def assign? (value : Toml) : (path : List String) → Bindings Toml → Option (Bindings Toml)
  | [], _ => none
  | [name], entries => if entries.contains name then none else some (entries.insert name value)
  | name :: rest, entries =>
    match entries.get? name with
    | none => do some (entries.insert name (.table .dotted (← assign? value rest .empty)))
    | some (.table form inner) =>
      if form = .dotted ∨ form = .implied ∧ 1 < rest.length then do
        some (entries.insert name (.table form (← assign? value rest inner)))
      else none
    | some (.array .headed items) =>
      match items.getLast? with
      | some (.table form inner) =>
        if 1 < rest.length then do
          let last := .table form (← assign? value rest inner)
          some (entries.insert name (.array .headed (items.dropLast ++ [last])))
        else none
      | _ => none
    | some _ => none

/-- Changes the table at a path. Tables that are missing on the way are implied, and an array that
has headers stands for its last table. -/
def within? (change : Bindings Toml → Option (Bindings Toml)) :
    (path : List String) → Bindings Toml → Option (Bindings Toml)
  | [], entries => change entries
  | name :: rest, entries =>
    match entries.get? name with
    | none => do some (entries.insert name (.table .implied (← within? change rest .empty)))
    | some (.table form inner) =>
      if form = .inline then none
      else do some (entries.insert name (.table form (← within? change rest inner)))
    | some (.array .headed items) =>
      match items.getLast? with
      | some (.table form inner) => do
        let last := .table form (← within? change rest inner)
        some (entries.insert name (.array .headed (items.dropLast ++ [last])))
      | _ => none
    | some _ => none

/-- Gives the table of a name its header. -/
def openTable? (name : String) (entries : Bindings Toml) : Option (Bindings Toml) :=
  match entries.get? name with
  | none => some (entries.insert name (.table .headed .empty))
  | some (.table .implied inner) => some (entries.insert name (.table .headed inner))
  | some _ => none

/-- Adds a table to the array of a name. -/
def openRow? (name : String) (entries : Bindings Toml) : Option (Bindings Toml) :=
  let row := Toml.table .headed .empty
  match entries.get? name with
  | none => some (entries.insert name (.array .headed [row]))
  | some (.array .headed items) => some (entries.insert name (.array .headed (items ++ [row])))
  | some _ => none

end Toml

end Catena
