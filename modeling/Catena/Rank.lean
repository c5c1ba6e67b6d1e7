import Catena.Advance

set_option autoImplicit false

/-!
Why a step ends. Internal work on frames cannot go on forever: a frame that runs code ends it, and
all other work lowers a rank made of what operations can still put on the stack and of what is left
to do in the frames. Tests of a conditional are the only frames that invoke values without running
code, and an operation that adds a conditional has taken an operand for it.
-/

namespace Catena

/-- Whether the frame runs code next. -/
def Frame.isReady : Frame → Bool
  | .program (_ :: _) | .body (_ :: _) => true
  | _ => false

/-- How often a frame can be dealt with before it is gone or runs code. -/
def Frame.weight : Frame → Nat
  | .condTest pairs => 2 * pairs.length + 1
  | .condCheck _ rest => 2 * rest.length + 2
  | _ => 1

def totalWeight : List Frame → Nat
  | [] => 0
  | frame :: below => frame.weight + totalWeight below

/-- Whether the next thing that happens runs code. -/
def Machine.isReady (m : Machine) : Bool := m.frames.toList.head?.any Frame.isReady

/-- Dealing with frames lowers this rank until code runs. -/
def Machine.rank (m : Machine) : Nat × Nat :=
  if m.isReady then (0, 0) else (m.potential + 1, totalWeight m.frames.toList)

/-- What counts as progress towards running code. -/
def Lowers (m m' : Machine) : Prop :=
  m'.isReady = true ∨ m'.potential < m.potential ∨
    (m'.potential ≤ m.potential ∧ totalWeight m'.frames.toList < totalWeight m.frames.toList)

theorem Machine.rank_lt {m m' : Machine} (waiting : m.isReady = false) (h : Lowers m m') :
    Prod.Lex (· < ·) (· < ·) m'.rank m.rank := by
  simp only [rank, waiting]
  rw [Prod.lex_def]
  split
  · exact .inl (by simp)
  · simp only [Bool.false_eq_true, ↓reduceIte]
    rcases h with ready | less | ⟨le, weight⟩
    · simp_all
    · exact .inl (by omega)
    · rcases Nat.lt_or_eq_of_le le with less | eq
      · exact .inl (by omega)
      · exact .inr ⟨by omega, weight⟩

namespace Exec

/-- Invoking a value leaves the frames alone and raises the stack by one at most, or does not raise
the potential. -/
theorem invoke_tame {v : Value} {m m' : Machine} (h : invoke v m = .ok () m') :
    (m'.frames = m.frames ∧ m'.operands.count ≤ m.operands.count + 1) ∨
      m'.potential ≤ m.potential := by
  induction operands : m.operands.count using Nat.strongRecOn generalizing v m with
  | ind _ ih =>
  subst operands
  rw [invoke.eq_def] at h
  split at h
  · refine .inr ?_
    rw [pushFrame_eq_ok h]
    simp [Machine.potential, openTests]
  · exact .inr (potential_of_enter h)
  · next o origin =>
    split at h
    · next ran =>
      cases h
      exact tame_operation o _ _ _ ran
    · next next mid ran =>
      have paid := tame_operation o _ _ _ ran
      rcases ih _ paid.1 h rfl with ⟨frames, count⟩ | le
      · refine .inr ?_
        simp only [Machine.potential, frames] at paid ⊢
        omega
      · exact .inr (by simp only at paid; omega)
    · cases h
  · cases h

theorem invoke_lowers {v : Value} {m m₀ m' : Machine} (h : invoke v m = .ok () m')
    (potential : m.potential < m₀.potential)
    (weight : totalWeight m.frames.toList < totalWeight m₀.frames.toList) :
    m'.potential < m₀.potential ∨
      (m'.potential ≤ m₀.potential ∧
        totalWeight m'.frames.toList < totalWeight m₀.frames.toList) := by
  rcases invoke_tame h with ⟨frames, count⟩ | le
  · refine .inr ⟨?_, by rw [frames]; exact weight⟩
    simp only [Machine.potential, frames] at potential ⊢
    omega
  · exact .inl (by omega)

end Exec

section

variable {below : Stack Frame} {m m' : Machine}

theorem Frame.weight_pos (frame : Frame) : 0 < frame.weight := by
  cases frame <;> simp [Frame.weight]

/-- Dropping the topmost frame lowers the weight and no more than keeps the rest. -/
theorem drop_lowers {frame : Frame} (top : m.frames.toList = frame :: below.toList)
    (frames : m'.frames = below) (count : m'.operands.count ≤ m.operands.count) :
    m'.potential ≤ m.potential ∧
      totalWeight m'.frames.toList < totalWeight m.frames.toList := by
  have := frame.weight_pos
  simp only [Machine.potential, totalWeight, frames, top]
  refine ⟨?_, by omega⟩
  cases frame <;> simp only [openTests] <;> omega

namespace Exec

theorem local_checkLeft (c : Closure Value) (floor : Nat) : Local 0 (checkLeft c floor) := by
  unfold checkLeft
  split
  · exact local_get.bind fun _ => local_ofExcept _
  · exact local_pure _

theorem leaveCall_lowers {c : Closure Value} {floor : Nat}
    (top : m.frames.toList = .call c floor :: below.toList)
    (h : leaveCall c floor below m = .ok () m') : Lowers m m' := by
  obtain ⟨_, mid, checked, rest⟩ := bind_eq_ok h
  cases rest
  obtain ⟨_, count⟩ := local_checkLeft c floor _ _ _ checked
  exact .inr (.inr (drop_lowers top rfl (by simp only [Operands.count_allow]; omega)))

theorem leaveUpdate_lowers {items : List Value} {field : Field} {types : Scope} {floor : Nat}
    (top : m.frames.toList = .update items field types floor :: below.toList)
    (h : leaveUpdate items field types floor below m = .ok () m') : Lowers m m' := by
  obtain ⟨seen, mid₁, run₁, rest₁⟩ := bind_eq_ok h
  obtain ⟨_, mid₂, run₂, rest₂⟩ := bind_eq_ok rest₁
  obtain ⟨rfl, rfl⟩ := get_eq_ok run₁
  cases run₂
  split at rest₂
  · obtain ⟨frames, count⟩ :=
      (local_pop.bind fun _ => local_writeField).mono (by decide : (-1 : Int) + 1 ≤ 0) _ _ _ rest₂
    simp only [Operands.count_allow] at frames count
    exact .inr (.inr (drop_lowers top frames (by omega)))
  · cases rest₂

theorem checkCondition_lowers {action : Value} {pairs : List (Value × Value)}
    (top : m.frames.toList = .condCheck action pairs :: below.toList)
    (h : checkCondition action pairs below m = .ok () m') : Lowers m m' := by
  obtain ⟨v, mid₁, run₁, rest₁⟩ := bind_eq_ok h
  obtain ⟨frames, count⟩ := local_pop _ _ _ run₁
  split at rest₁
  · obtain ⟨_, mid₂, run₂, rest₂⟩ := bind_eq_ok rest₁
    cases run₂
    refine .inr (invoke_lowers rest₂ ?_ ?_)
    · simp only [Machine.potential, top, openTests]
      omega
    · simp only [totalWeight, top, Frame.weight]
      omega
  · cases rest₁
    refine .inr (.inr ?_)
    simp only [Machine.potential, totalWeight, top, Stack.toList_push, openTests, Frame.weight]
    omega
  · cases rest₁

/-- A round of a loop that has code to run puts it on top. -/
theorem runBody_eq_internal {body : List Value} (h : runBody body m = .ok .internal m') :
    body.isEmpty ≠ true ∧ m' = { m with frames := m.frames.push (.body body) } := by
  unfold runBody at h
  split at h
  · cases h
  · next filled =>
    obtain ⟨_, mid, pushed, rest⟩ := bind_eq_ok h
    cases rest
    exact ⟨filled, pushFrame_eq_ok pushed⟩

theorem runBody_lowers {body : List Value} {m₀ : Machine}
    (h : runBody body m = .ok .internal m') : Lowers m₀ m' := by
  obtain ⟨filled, rfl⟩ := runBody_eq_internal h
  exact .inl (by cases body <;> simp_all [Machine.isReady, Frame.isReady])

theorem advance_lowers {frame : Frame} (top : m.frames.toList = frame :: below.toList)
    (h : advance frame below m = .ok .internal m') : Lowers m m' := by
  unfold advance at h
  split at h
  · cases h
    exact .inr (.inr (drop_lowers top rfl (Nat.le_refl _)))
  · obtain ⟨_, _, _, rest⟩ := bind_eq_ok h
    obtain ⟨_, _, _, rest⟩ := bind_eq_ok rest
    cases rest
  · cases h
    exact .inr (.inr (drop_lowers top rfl (Nat.le_refl _)))
  · obtain ⟨_, _, _, rest⟩ := bind_eq_ok h
    obtain ⟨_, _, _, rest⟩ := bind_eq_ok rest
    cases rest
  · obtain ⟨_, _, left, rest⟩ := bind_eq_ok h
    cases rest
    exact leaveCall_lowers top left
  · exact runBody_lowers h
  · split at h
    · obtain ⟨_, _, _, rest⟩ := bind_eq_ok h
      obtain ⟨_, _, _, rest⟩ := bind_eq_ok rest
      exact runBody_lowers rest
    · cases h
      exact .inr (.inr (drop_lowers top rfl (Nat.le_refl _)))
  · cases h
    exact .inr (.inr (drop_lowers top rfl (Nat.le_refl _)))
  · obtain ⟨_, mid₁, run₁, rest₁⟩ := bind_eq_ok h
    obtain ⟨_, mid₂, run₂, rest₂⟩ := bind_eq_ok rest₁
    cases rest₂
    cases run₁
    refine .inr (invoke_lowers run₂ ?_ ?_)
    · simp [Machine.potential, top, openTests]
    · simp only [totalWeight, top, Stack.toList_push, Frame.weight, List.length_cons]
      omega
  · obtain ⟨_, _, checked, rest⟩ := bind_eq_ok h
    cases rest
    exact checkCondition_lowers top checked
  · cases h
    exact .inr (.inr (drop_lowers top rfl (Nat.le_refl _)))
  · obtain ⟨_, _, left, rest⟩ := bind_eq_ok h
    cases rest
    exact leaveUpdate_lowers top left

/-- A frame that runs code does not end internally. -/
theorem isReady_of_advance {frame : Frame} (h : advance frame below m = .ok .internal m') :
    frame.isReady = false := by
  unfold advance at h
  split at h <;> simp only [Frame.isReady]
  · obtain ⟨_, _, _, rest⟩ := bind_eq_ok h
    obtain ⟨_, _, _, rest⟩ := bind_eq_ok rest
    cases rest
  · obtain ⟨_, _, _, rest⟩ := bind_eq_ok h
    obtain ⟨_, _, _, rest⟩ := bind_eq_ok rest
    cases rest

/-- Internal work lowers the rank. -/
theorem rank_of_advance {frame : Frame} (top : m.frames.pop? = some (frame, below))
    (h : advance frame below m = .ok .internal m') :
    Prod.Lex (· < ·) (· < ·) m'.rank m.rank := by
  have top := Stack.pop?_eq_some_iff.1 top
  refine Machine.rank_lt ?_ (advance_lowers top h)
  simp [Machine.isReady, top, isReady_of_advance h]

end Exec

end

end Catena
