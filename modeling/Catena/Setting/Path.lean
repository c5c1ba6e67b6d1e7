import Catena.Setting

set_option autoImplicit false

/-!
Paths into trees of settings: a name, then further names after points and places in lists in square
brackets. A path that leads through something else makes tables and lists of what is in its way.
-/

namespace Catena.Setting

inductive Step where
  | name (name : String)
  /-- A place in a list, which is counted from the end if it is negative. -/
  | index (i : Int64)
  deriving DecidableEq, Repr

private def isNameChar (c : Char) : Bool := c.isAlphanum || c = '_' || c = '-' || c = ' '

private def isSpace (c : Char) : Bool := c = ' ' || c = '\t'

/-- The place that the text up to a closing bracket names. -/
def index? (cs : List Char) : Option (Int64 × List Char) := do
  let cs := cs.dropWhile isSpace
  let (negative, cs) :=
    match cs with
    | '-' :: rest => (true, rest)
    | _ => (false, cs)
  let digits := cs.takeWhile Char.isDigit
  if digits.isEmpty then none
  else
    match (cs.dropWhile Char.isDigit).dropWhile isSpace with
    | ']' :: rest =>
      let n : Int := Number.ofDigits digits
      some (← Number.ofInt? (if negative then -n else n), rest)
    | _ => none

private def nameStep? (cs : List Char) : Option (Step × List Char) :=
  let name := cs.takeWhile isNameChar
  if name.isEmpty then none else some (.name (String.ofList name), cs.dropWhile isNameChar)

/-- The steps after the first one. -/
def laterSteps? : (bound : Nat) → List Char → Option (List Step)
  | _, [] => some []
  | 0, _ => none
  | bound + 1, '.' :: rest => do
    let (step, rest) ← nameStep? rest
    some (step :: (← laterSteps? bound rest))
  | bound + 1, '[' :: rest => do
    let (i, rest) ← index? rest
    some (.index i :: (← laterSteps? bound rest))
  | _, _ => none

/-- The steps of a path, unless the text is none. -/
def steps? (text : String) : Option (List Step) := do
  let (first, rest) ← nameStep? text.toList
  some (first :: (← laterSteps? rest.length rest))

/-- Changes the element at a place of a list, which is filled up as far as that takes. -/
def changeAt (i : Int64) (change : Setting → Setting) (items : List Setting) : List Setting :=
  let back := i.toInt.natAbs
  if 0 ≤ i then
    let filled := items ++ List.replicate (back + 1 - items.length) Setting.nothing
    filled.modify back change
  else if back ≤ items.length then items.modify (items.length - back) change
  else (List.replicate (back - items.length) Setting.nothing ++ items).modify 0 change

/-- Puts a setting at the end of a path. -/
def putAt (value : Setting) : List Step → (target : Setting) → Setting
  | [], _ => value
  | [.name name], target => put name value target
  | .name name :: rest, target =>
    target.insert name (putAt value rest ((target.child? name).getD .nothing))
  | .index i :: rest, target =>
    let (place, items) := target.asList
    .list place (changeAt i (putAt value rest) items)

/-- Puts a setting under a key, which is a path or else a name as it stands. -/
def putKey (key : String) (value : Setting) (target : Setting) : Setting :=
  match steps? key with
  | some steps => putAt value steps target
  | none => put key value target

/-- Adds settings, each of which replaces what was under its key. -/
def putKeys (target : Setting) (settings : List (String × Setting)) : Setting :=
  settings.foldl (fun target (key, value) => putKey key value target) target

end Catena.Setting
