import Catena.Step
import Catena.Proofs.Ground

set_option autoImplicit false

/-!
What giving up frames does to a machine: scopes are left and floors are lifted, one for each frame
that had them. The operands stay where they are, and so does everything else.
-/

namespace Catena

namespace Scopes

/-- All scopes, the active one first. -/
def toList (s : Scopes) : List Scope := s.active :: s.saved

/-- Goes back to a caller's caller, so many calls away. -/
def leaveMany (s : Scopes) : Nat → Scopes
  | 0 => s
  | calls + 1 => s.leave.leaveMany calls

@[simp] theorem length_toList (s : Scopes) : s.toList.length = s.depth + 1 := rfl

theorem toList_leave {s : Scopes} (callers : 0 < s.depth) : s.leave.toList = s.toList.tail := by
  obtain ⟨active, saved⟩ := s
  cases saved with
  | nil => exact absurd callers (Nat.lt_irrefl 0)
  | cons scope rest => rfl

theorem toList_leaveMany {s : Scopes} {calls : Nat} (callers : calls ≤ s.depth) :
    (s.leaveMany calls).toList = s.toList.drop calls := by
  induction calls generalizing s with
  | zero => rfl
  | succ calls ih =>
    have left := toList_leave (Nat.lt_of_lt_of_le (Nat.succ_pos calls) callers)
    have depth : calls ≤ s.leave.depth := by
      have lengths := congrArg List.length left
      simp only [length_toList, List.length_tail] at lengths
      omega
    calc (s.leave.leaveMany calls).toList
        = s.leave.toList.drop calls := ih depth
      _ = s.toList.drop (calls + 1) := by rw [left, List.drop_tail]

theorem saved_leaveMany {s : Scopes} {calls : Nat} (callers : calls ≤ s.depth) :
    (s.leaveMany calls).saved = s.saved.drop calls := by
  have lists := congrArg List.tail (toList_leaveMany callers)
  rwa [List.tail_drop, ← List.drop_tail] at lists

end Scopes

namespace Machine

/-- Releasing frames changes scopes and floors only. -/
theorem releaseAll_eq (m : Machine) (above : List Frame) :
    m.releaseAll above =
      { m with
        scopes := m.scopes.leaveMany (callsIn above)
        operands := ⟨m.operands.items, (floorsOf above).foldl List.erase m.operands.floors⟩ } := by
  induction above generalizing m with
  | nil => rfl
  | cons frame above ih =>
    have rest := ih (m.release frame)
    change (m.release frame).releaseAll above = _
    rw [rest, callsIn_cons, floorsOf_cons]
    cases frame <;> rfl

@[simp] theorem isCollecting_releaseAll (m : Machine) (above : List Frame) :
    (m.releaseAll above).isCollecting = m.isCollecting := by
  rw [releaseAll_eq]
  rfl

/-- The scopes that are left are those of the activations that are left. -/
theorem scopes_releaseAll {m : Machine} {above : List Frame}
    (callers : callsIn above ≤ m.scopes.depth) :
    (m.releaseAll above).scopes.toList = m.scopes.toList.drop (callsIn above) := by
  rw [releaseAll_eq]
  exact Scopes.toList_leaveMany callers

theorem saved_releaseAll {m : Machine} {above : List Frame}
    (callers : callsIn above ≤ m.scopes.depth) :
    (m.releaseAll above).scopes.saved = m.scopes.saved.drop (callsIn above) := by
  rw [releaseAll_eq]
  exact Scopes.saved_leaveMany callers

end Machine

end Catena
