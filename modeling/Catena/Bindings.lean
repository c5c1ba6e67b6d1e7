set_option autoImplicit false

/-!
Names bound to values. A name is bound at most once: binding it again replaces its value, so that
`get?` after `insert` is the only fact about the order of the entries that anyone needs.
-/

namespace Catena

structure Bindings (α : Type) where
  entries : List (String × α) := []

namespace Bindings

variable {α : Type}

def empty : Bindings α := ⟨[]⟩

instance : Inhabited (Bindings α) := ⟨empty⟩

def find? (name : String) : List (String × α) → Option α
  | [] => none
  | (bound, value) :: rest => if bound = name then some value else find? name rest

def replace (name : String) (value : α) : List (String × α) → List (String × α)
  | [] => [(name, value)]
  | (bound, old) :: rest =>
    if bound = name then (name, value) :: rest else (bound, old) :: replace name value rest

def get? (b : Bindings α) (name : String) : Option α := find? name b.entries

def contains (b : Bindings α) (name : String) : Bool := (b.get? name).isSome

def insert (b : Bindings α) (name : String) (value : α) : Bindings α :=
  ⟨replace name value b.entries⟩

def size (b : Bindings α) : Nat := b.entries.length

def isEmpty (b : Bindings α) : Bool := b.entries.isEmpty

def names (b : Bindings α) : List String := b.entries.map Prod.fst

/-- Binds the pairs in order; a later pair wins over an earlier one. -/
def insertAll (b : Bindings α) (pairs : List (String × α)) : Bindings α :=
  pairs.foldl (fun b pair => b.insert pair.1 pair.2) b

def ofList (pairs : List (String × α)) : Bindings α := insertAll empty pairs

@[simp] theorem get?_empty (name : String) : (empty : Bindings α).get? name = none := rfl

theorem find?_replace (name other : String) (value : α) (entries : List (String × α)) :
    find? other (replace name value entries) =
      if name = other then some value else find? other entries := by
  induction entries with
  | nil => simp [replace, find?]
  | cons entry rest ih =>
    obtain ⟨bound, old⟩ := entry
    simp only [replace]
    split <;> simp only [find?] <;> grind

@[simp] theorem get?_insert (b : Bindings α) (name other : String) (value : α) :
    (b.insert name value).get? other = if name = other then some value else b.get? other :=
  find?_replace name other value b.entries

end Bindings

end Catena
