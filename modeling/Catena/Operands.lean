import Catena.Stack
import Catena.Value.Basic

set_option autoImplicit false

/-!
The operand stack and its floors. A floor is a height below which the running activation neither
reads nor takes operands. Floors are released by height and not in the order in which they were set,
so an activation can be replaced by another one that stands on the same floor.
-/

namespace Catena

structure Operands where
  items : Stack Value
  /-- The floors, the active one first. -/
  floors : List Nat

namespace Operands

def empty : Operands := ⟨.empty, []⟩

instance : Inhabited Operands := ⟨empty⟩

def count (s : Operands) : Nat := s.items.size

/-- The active floor. -/
def floor (s : Operands) : Nat := s.floors.headD 0

/-- How many operands are above the floor. -/
def accessible (s : Operands) : Nat := s.count - s.floor

/-- All operands, the lowest first. -/
def toList (s : Operands) : List Value := s.items.toList.reverse

def push (s : Operands) (v : Value) : Operands := { s with items := s.items.push v }

/-- Why an operand cannot be had. -/
def missing (s : Operands) : RuntimeError :=
  if s.count = 0 then .stackEmpty else .stackOutOfRange

def pop (s : Operands) : Except RuntimeError (Value × Operands) :=
  if s.accessible = 0 then .error s.missing
  else
    match s.items.pop? with
    | some (v, rest) => .ok (v, { s with items := rest })
    | none => .error s.missing

/-- The operand `offset` places below the top. -/
def peek (s : Operands) (offset : Nat) : Except RuntimeError Value :=
  if offset < s.accessible then
    match s.items.toList[offset]? with
    | some v => .ok v
    | none => .error s.missing
  else .error s.missing

/-- Whether there is an operand to be seen and `wanted` holds of it. -/
def topIs (s : Operands) (wanted : Value → Bool) : Bool :=
  match s.peek 0 with
  | .ok v => wanted v
  | .error _ => false

/-- Takes the topmost accessible operand that `wanted` holds of and everything above it; the answer
is what was above it, lowest first. -/
def popUntil (s : Operands) (wanted : Value → Bool) : Option (List Value × Operands) :=
  let above := (s.items.toList.take s.accessible).takeWhile (!wanted ·)
  if above.length < s.accessible then
    some (above.reverse, { s with items := s.items.drop (above.length + 1) })
  else none

/-- The operands from a height on, lowest first. -/
def valuesFrom (s : Operands) (height : Nat) : List Value := s.items.above height

/-- Lowers the stack to a height, but not below the floor. -/
def truncate (s : Operands) (height : Nat) : Operands :=
  { s with items := s.items.keep (max height s.floor) }

/-- Sets a floor under which everything now on the stack is out of reach. -/
def forbid (s : Operands) : Operands := { s with floors := s.count :: s.floors }

/-- Releases the latest floor of this height. -/
def allow (s : Operands) (height : Nat) : Operands := { s with floors := s.floors.erase height }

@[simp] theorem count_push (s : Operands) (v : Value) : (s.push v).count = s.count + 1 := rfl

@[simp] theorem floors_push (s : Operands) (v : Value) : (s.push v).floors = s.floors := rfl

@[simp] theorem count_forbid (s : Operands) : s.forbid.count = s.count := rfl

@[simp] theorem count_allow (s : Operands) (height : Nat) : (s.allow height).count = s.count := rfl

theorem count_truncate_le (s : Operands) (height : Nat) : (s.truncate height).count ≤ s.count := by
  simp only [truncate, count, Stack.size_keep]
  omega

theorem count_of_pop {s rest : Operands} {v : Value} (h : s.pop = .ok (v, rest)) :
    s.count = rest.count + 1 := by
  unfold pop at h
  split at h
  · cases h
  · split at h
    · next v' t hp =>
      cases h
      exact Stack.size_of_pop? hp
    · cases h

end Operands

end Catena
