import Catena.Proofs.Balance
import Catena.Proofs.Steady

set_option autoImplicit false

/-!
Frames that stay during a turn, and what takes them away. Signals go past the frames that do not
stop them; a frame that they have gone past is gone.
-/

namespace Catena

/-- An action that leaves the frames alone does not fail for want of them. -/
theorem Exec.Steady.not_refused {α : Type} {x : Exec α} (steady : Exec.Steady x) (m : Machine) :
    ¬ Refused (x m) := by
  rintro ⟨m', failed, _⟩
  have kept := steady m
  rw [failed] at kept
  obtain ⟨_, e, same, other⟩ := kept
  cases same
  exact other rfl

/-! ### Frames that stay -/

/-- The frame at a position, counted from the bottom. -/
def Machine.frameAt? (m : Machine) (i : Nat) : Option Frame := m.frames.toList.reverse[i]?

/-- A tail call puts another closure into the frame of the running one. -/
inductive Frame.Becomes : Frame → Frame → Prop
  | same (f : Frame) : Becomes f f
  | replaced (c d : Closure Value) (floor : Nat) : Becomes (.call c floor) (.call d floor)

/-- The frame at a position is still there, except that a tail call may have replaced its
closure. -/
def Machine.Stays (i : Nat) (m m' : Machine) : Prop :=
  ∃ f g, m.frameAt? i = some f ∧ m'.frameAt? i = some g ∧ f.Becomes g

theorem Machine.frameAt?_of_append {m : Machine} {above below : List Frame} {f : Frame}
    (frames : m.frames.toList = above ++ f :: below) : m.frameAt? below.length = some f := by
  rw [Machine.frameAt?, frames, List.reverse_append, List.reverse_cons,
    List.getElem?_append_left (by simp), List.getElem?_append_right (by simp)]
  simp

theorem Machine.lt_of_frameAt? {m : Machine} {i : Nat} {f : Frame} (found : m.frameAt? i = some f) :
    i < m.frames.size := by
  have inside := (List.getElem?_eq_some_iff.1 found).1
  rwa [List.length_reverse, Stack.length_eq] at inside

theorem Machine.not_stays_of_size {m m' : Machine} {i : Nat} (gone : m'.frames.size ≤ i) :
    ¬ Machine.Stays i m m' := by
  rintro ⟨f, g, _, found, _⟩
  exact Nat.not_lt.2 gone (Machine.lt_of_frameAt? found)

theorem exists_split {α β : Type} (read? : α → Option β) (items : List α) :
    (∀ x ∈ items, read? x = none) ∨
      ∃ above a rest b, items = above ++ a :: rest ∧ (∀ x ∈ above, read? x = none) ∧
        read? a = some b := by
  induction items with
  | nil => exact .inl (List.forall_mem_nil _)
  | cons x items ih =>
    cases found : read? x with
    | some b => exact .inr ⟨[], x, items, b, rfl, List.forall_mem_nil _, found⟩
    | none =>
      rcases ih with passed | ⟨above, a, rest, b, rfl, passed, accepted⟩
      · exact .inl (List.forall_mem_cons.2 ⟨found, passed⟩)
      · exact .inr ⟨x :: above, a, rest, b, rfl, List.forall_mem_cons.2 ⟨found, passed⟩, accepted⟩

section

variable {m : Machine} {above rest : List Frame}

/-- An error goes past the frames that are no attempts. -/
theorem Machine.size_raiseError (frames : m.frames.toList = above ++ rest)
    (passed : ∀ f ∈ above, f.attemptHeight? = none) (e : LocatedError) :
    (m.raiseError e).2.frames.size ≤ rest.length := by
  rcases exists_split Frame.attemptHeight? rest with free |
    ⟨above₁, f, rest₁, height, rfl, free, found⟩
  · have all : ∀ f ∈ m.frames.toList, f.attemptHeight? = none := by
      rw [frames]
      exact List.forall_mem_append.2 ⟨passed, free⟩
    rw [Machine.raiseError_of_passed all]
    exact Nat.zero_le _
  · rw [← List.append_assoc] at frames
    obtain ⟨below, split, lower⟩ := Stack.split?_of_append frames
      (List.forall_mem_append.2 ⟨passed, free⟩) found
    have size : below.size = rest₁.length := by rw [← lower, below.length_eq]
    simp only [Machine.raiseError, split]
    change below.size ≤ _
    rw [size, List.length_append, List.length_cons]
    omega

theorem Machine.size_raiseError_le (m : Machine) (e : LocatedError) :
    (m.raiseError e).2.frames.size ≤ m.frames.size := by
  rw [← m.frames.length_eq]
  exact Machine.size_raiseError (List.nil_append _).symm (List.forall_mem_nil _) e

/-- A break goes past the frames that neither are loops nor bound an activation. -/
theorem Machine.size_leaveLoop (frames : m.frames.toList = above ++ rest)
    (passed : ∀ f ∈ above, f.loopEdge? = none) :
    (Machine.afterSignal (Exec.leaveLoop m)).2.frames.size ≤ rest.length := by
  rcases exists_split Frame.loopEdge? rest with free | ⟨above₁, f, rest₁, isLoop, rfl, free, found⟩
  · have all : ∀ f ∈ m.frames.toList, f.loopEdge? = none := by
      rw [frames]
      exact List.forall_mem_append.2 ⟨passed, free⟩
    rw [Exec.leaveLoop, Stack.split?_eq_none all]
    exact Nat.le_trans (Machine.size_raiseError_le _ _) (Nat.zero_le _)
  · rw [← List.append_assoc] at frames
    obtain ⟨below, split, lower⟩ := Stack.split?_of_append frames
      (List.forall_mem_append.2 ⟨passed, free⟩) found
    have size : below.size = rest₁.length := by rw [← lower, below.length_eq]
    have height := congrArg List.length frames
    simp only [m.frames.length_eq, List.length_append, List.length_cons] at height
    simp only [Exec.leaveLoop, split, List.length_append, List.length_cons]
    cases isLoop with
    | true =>
      change below.size ≤ _
      omega
    | false =>
      refine Nat.le_trans (Machine.size_raiseError_le _ _) ?_
      change m.frames.size - (above ++ above₁).length ≤ _
      rw [List.length_append]
      omega

/-- A break does not get past a frame that holds a floor: it stops there with an error, which goes
on, or has left the frame behind. -/
theorem Machine.size_leaveLoop_floor {f : Frame} (frames : m.frames.toList = above ++ f :: rest)
    (passed : ∀ f ∈ above, f.loopEdge? = none) (holds : f.floor? ≠ none) :
    (Machine.afterSignal (Exec.leaveLoop m)).2.frames.size ≤ rest.length := by
  cases f with
  | call c floor =>
    obtain ⟨below, split, lower⟩ := Stack.split?_of_append frames passed (by rfl)
    have here : (m.frames.drop above.length).toList = [.call c floor] ++ rest := by
      simp [frames]
    simp only [Exec.leaveLoop, split]
    exact Machine.size_raiseError here (List.forall_mem_singleton.2 rfl) _
  | update items field types floor =>
    rw [← List.singleton_append, ← List.append_assoc] at frames
    exact Machine.size_leaveLoop frames
      (List.forall_mem_append.2 ⟨passed, List.forall_mem_singleton.2 rfl⟩)
  | _ => exact absurd rfl holds

/-- A tail call goes past the frames that are no calls. It fails on the spot if there is no call at
all; otherwise the frames are gone, or the body of a closure has come to their place. -/
theorem Exec.replaceCall_past (frames : m.frames.toList = above ++ rest)
    (passed : ∀ f ∈ above, f.callFloor? = none) (target : Closure Value) :
    ((∀ f ∈ rest, f.callFloor? = none) ∧
      Exec.replaceCall target m = .error (.error .tailCallOutsideFunction) m) ∨
      ∀ f, (Machine.afterSignal (Exec.replaceCall target m)).2.frameAt? rest.length = some f →
        ∃ code, f = .body code := by
  rcases exists_split Frame.callFloor? rest with free | ⟨above₁, f, rest₁, floor, rfl, free, found⟩
  · have all : ∀ f ∈ m.frames.toList, f.callFloor? = none := by
      rw [frames]
      exact List.forall_mem_append.2 ⟨passed, free⟩
    exact .inl ⟨free, Exec.replaceCall_of_passed all target⟩
  · right
    rw [← List.append_assoc] at frames
    obtain ⟨below, split, lower⟩ := Stack.split?_of_append frames
      (List.forall_mem_append.2 ⟨passed, free⟩) found
    have height := congrArg List.length frames
    simp only [m.frames.length_eq, List.length_append, List.length_cons] at height
    rw [Exec.replaceCall_eq split]
    have kept := Exec.steady_bindParameters target
      { m.releaseAll (above ++ above₁) with
        frames := m.frames.drop (above ++ above₁).length
        scopes := (m.releaseAll (above ++ above₁)).scopes.leave.enter target.activation }
    simp only [Bind.bind, EStateM.bind]
    generalize Exec.bindParameters target _ = x at kept
    cases x with
    | ok _ m' =>
      intro f found
      have inside := Machine.lt_of_frameAt? found
      have size : below.size = rest₁.length := by rw [← lower, below.length_eq]
      change _ < below.size + 2 at inside
      rw [List.length_append, List.length_cons] at inside found
      -- The body is the topmost frame, so a frame found this high is the body.
      have top : ({ m' with frames := (below.push (.call target floor)).push (.body target.body) } :
          Machine).frameAt? (below.push (.call target floor)).toList.length =
            some (.body target.body) :=
        Machine.frameAt?_of_append (List.nil_append _).symm
      rw [Stack.toList_push, List.length_cons, lower] at top
      rw [show above₁.length + (rest₁.length + 1) = rest₁.length + 1 by omega] at found
      exact ⟨target.body, Option.some.inj (found.symm.trans top)⟩
    | error signal m' =>
      obtain ⟨⟨same, _⟩, e, rfl, _⟩ := kept
      intro f found
      have inside := Machine.lt_of_frameAt? found
      have raised := m'.size_raiseError_le (m'.locate e)
      have size : m'.frames.size = m.frames.size - (above ++ above₁).length := by rw [same]; rfl
      change _ < (m'.raiseError (m'.locate e)).2.frames.size at inside
      rw [List.length_append] at size
      rw [List.length_append, List.length_cons] at inside
      omega

theorem Frame.attemptHeight?_of_floor? {f : Frame} (holds : f.floor? ≠ none) :
    f.attemptHeight? = none := by
  cases f <;> first | rfl | exact absurd rfl holds

theorem Exec.leaveCall_gone (c : Closure Value) (floor : Nat) (below : Stack Frame) (m : Machine) :
    match Exec.leaveCall c floor below m with
    | .ok _ m' => m'.frames = below
    | .error signal m' => m' = m ∧ ∃ e, signal = .error e := by
  simp only [Exec.leaveCall, Exec.checkLeft]
  cases c.signature with
  | none => rfl
  | some signature =>
    simp only [Bind.bind, EStateM.bind, Exec.get_apply]
    cases m.checkReturns signature floor with
    | ok _ => rfl
    | error e => exact ⟨rfl, e, rfl⟩

theorem Exec.leaveUpdate_gone (items : List Value) (field : Field) (types : Scope) (floor : Nat)
    (below : Stack Frame) (m : Machine) :
    match Exec.leaveUpdate items field types floor below m with
    | .ok _ m' => m'.frames = below
    | .error signal m' => m'.frames = below ∧ ∃ e, signal = .error e := by
  have write := (Exec.steady_pop.bind fun v => Exec.steady_writeField items field types v)
    { m with frames := below, operands := m.operands.allow floor }
  simp only [Exec.leaveUpdate, Bind.bind, EStateM.bind, Exec.get_apply]
  by_cases one : m.operands.count - floor = 1
  · simp only [if_pos one]
    change match (Exec.pop >>= fun v => Exec.writeField items field types v)
        { m with frames := below, operands := m.operands.allow floor } with
      | .ok _ m' => m'.frames = below
      | .error signal m' => m'.frames = below ∧ ∃ e, signal = .error e
    generalize (Exec.pop >>= fun v => Exec.writeField items field types v) _ = x at write
    cases x with
    | ok _ m' => exact write.1
    | error signal m' =>
      obtain ⟨kept, e, failed, _⟩ := write
      exact ⟨kept.1, e, failed⟩
  · simp only [if_neg one]
    exact ⟨rfl, _, rfl⟩

theorem Frame.Becomes.not_body {f g : Frame} (becomes : f.Becomes g) (holds : f.floor? ≠ none)
    (code : List Value) : g ≠ .body code := by
  rintro rfl
  cases becomes
  exact holds rfl

/-- A frame that holds a floor is gone once it has been dealt with. -/
theorem Machine.size_turn {f : Frame} (frames : m.frames.toList = f :: rest)
    (holds : f.floor? ≠ none) : m.turn.2.frames.size ≤ rest.length := by
  rw [Machine.turn_of_frames (s := .ofList rest) frames]
  cases f with
  | call c floor =>
    have gone := Exec.leaveCall_gone c floor (.ofList rest) m
    simp only [Exec.advance, Bind.bind, EStateM.bind]
    cases ran : Exec.leaveCall c floor (.ofList rest) m with
    | ok _ m' =>
      rw [ran] at gone
      change m'.frames.size ≤ rest.length
      rw [gone]
      exact Nat.le_refl _
    | error signal m' =>
      rw [ran] at gone
      obtain ⟨rfl, e, rfl⟩ := gone
      have alone : m'.frames.toList = [.call c floor] ++ rest := frames
      exact Machine.size_raiseError alone (List.forall_mem_singleton.2 rfl) _
  | update items field types floor =>
    have gone := Exec.leaveUpdate_gone items field types floor (.ofList rest) m
    simp only [Exec.advance, Bind.bind, EStateM.bind]
    cases ran : Exec.leaveUpdate items field types floor (.ofList rest) m with
    | ok _ m' =>
      rw [ran] at gone
      change m'.frames.size ≤ rest.length
      rw [gone]
      exact Nat.le_refl _
    | error signal m' =>
      rw [ran] at gone
      obtain ⟨gone, e, rfl⟩ := gone
      refine Nat.le_trans (m'.size_raiseError_le _) ?_
      rw [gone]
      exact Nat.le_refl _
  | _ => exact absurd rfl holds

end

end Catena
