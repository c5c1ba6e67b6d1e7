import Catena.Toml.Basic
import Catena.Toml.Scalar

set_option autoImplicit false

/-!
Reading a TOML document: comments, headers, and keys with values. Arrays and inline tables nest up
to a fixed depth, on which the functions recurse; what stands in a row is bounded by the length of
the text.
-/

namespace Catena.Toml

/-- How many names a dotted key may have. -/
def pathLimit : Nat := 79

/-- How deeply arrays and inline tables may be nested. -/
def depthLimit : Nat := 79

/-- Reads something from the front of a text. -/
abbrev Reader (α : Type) := List Char → Option (α × List Char)

/-- A key, an equals sign and a value. -/
def assignment? (value? : Reader Toml) : Reader (List String × Toml) := fun cs => do
  match ← path? pathLimit cs with
  | (path, '=' :: rest) =>
    let (value, rest) ← value? (skipBlanks rest)
    some ((path, value), rest)
  | _ => none

/-- The elements of an array up to its end; the last may have a comma after it. -/
def items? (value? : Reader Toml) : (bound : Nat) → Reader (List Toml)
  | 0, _ => none
  | bound + 1, cs =>
    match cs with
    | ']' :: rest => some ([], rest)
    | _ => do
      let (item, rest) ← value? cs
      match skipGap false rest with
      | ',' :: rest =>
        let (items, rest) ← items? value? bound (skipGap false rest)
        some (item :: items, rest)
      | ']' :: rest => some ([item], rest)
      | _ => none

/-- The entries of an inline table up to its end. -/
def entries? (value? : Reader Toml) : (bound : Nat) → Bindings Toml → Reader (Bindings Toml)
  | 0, _, _ => none
  | bound + 1, entries, cs => do
    let ((path, value), rest) ← assignment? value? cs
    let entries ← assign? value path entries
    match skipBlanks rest with
    | ',' :: rest => entries? value? bound entries rest
    | '}' :: rest => some (entries, rest)
    | _ => none

def value? : (depth : Nat) → Reader Toml
  | 0, cs => (scalar? cs).map fun (s, rest) => (.scalar s, rest)
  | depth + 1, cs =>
    match cs with
    | '[' :: rest => do
      let (items, rest) ← items? (value? depth) (rest.length + 1) (skipGap false rest)
      some (.array .inline items, rest)
    | '{' :: rest =>
      match skipBlanks rest with
      | '}' :: rest => some (.table .inline .empty, rest)
      | rest => do
        let (entries, rest) ← entries? (value? depth) (rest.length + 1) .empty rest
        some (.table .inline entries, rest)
    | cs => (scalar? cs).map fun (s, rest) => (.scalar s, rest)

/-- What has been read of a document. -/
structure Document where
  entries : Bindings Toml := .empty
  /-- The table that keys now belong to. -/
  current : List String := []

namespace Document

/-- Goes on with the table that a header names. -/
def enter? (d : Document) (openAt? : String → Bindings Toml → Option (Bindings Toml))
    (path : List String) : Option Document := do
  let name ← path.getLast?
  some { entries := ← within? (openAt? name) path.dropLast d.entries, current := path }

def assign? (d : Document) (path : List String) (value : Toml) : Option Document := do
  some { d with entries := ← within? (Toml.assign? value path) d.current d.entries }

end Document

def document? : (bound : Nat) → Document → List Char → Option Document
  | 0, _, _ => none
  | bound + 1, d, cs =>
    match skipGap false cs with
    | [] => some d
    | '[' :: '[' :: rest => do
      match ← path? pathLimit rest with
      | (path, ']' :: ']' :: rest) =>
        document? bound (← d.enter? openRow? path) (← lineEnd? rest)
      | _ => none
    | '[' :: rest => do
      match ← path? pathLimit rest with
      | (path, ']' :: rest) => document? bound (← d.enter? openTable? path) (← lineEnd? rest)
      | _ => none
    | cs => do
      let ((path, value), rest) ← assignment? (value? depthLimit) cs
      document? bound (← d.assign? path value) (← lineEnd? rest)

/-- The entries a text holds, unless it is malformed. A byte order mark may stand in front. -/
def read? (text : String) : Option (Bindings Toml) :=
  let cs :=
    match text.toList with
    | '\ufeff' :: rest => rest
    | cs => cs
  (document? (cs.length + 1) {} cs).map Document.entries

end Catena.Toml
