import Catena.Proofs.Abreast
import Catena.Proofs.Protection

set_option autoImplicit false

/-!
Getting back to a caller. A caller sees nothing of what runs above its frames until no more of these
frames are left: then it goes on, or an error has gone past it to an attempt or to the end of the
run. What it finds is the machine, up to some counts.
-/

namespace Catena

/-- The operations that a machine has waited for, each with its answer. -/
abbrev Dialogue := List (Option (Pending Value) × Reply Value)

namespace Machine

/-- A part of a step has led to a machine, which goes on until no more than `depth` frames are left.
The outcome is there if the run has ended with that. -/
inductive Leaves (depth : Nat) :
    Dialogue → Option Step × Machine → Option Outcome → Machine → Prop
  | back {s m} : m.frames.size ≤ depth → Leaves depth [] (s, m) (s.bind Step.outcome?) m
  | pass {talk s m o m'} : depth < m.frames.size → m.control ≠ .suspend →
      Leaves depth talk m.pass o m' → Leaves depth talk (s, m) o m'
  | answer {talk s m reply o m'} : depth < m.frames.size → m.control = .suspend →
      Leaves depth talk (none, m.answer reply) o m' →
      Leaves depth ((m.pending, reply) :: talk) (s, m) o m'

/-- A machine on the way. -/
inductive Visits (depth : Nat) : Dialogue → Option Step × Machine → Machine → Prop
  | here {s m} : depth < m.frames.size → Visits depth [] (s, m) m
  | pass {talk s m m'} : depth < m.frames.size → m.control ≠ .suspend →
      Visits depth talk m.pass m' → Visits depth talk (s, m) m'
  | answer {talk s m reply m'} : depth < m.frames.size → m.control = .suspend →
      Visits depth talk (none, m.answer reply) m' →
      Visits depth ((m.pending, reply) :: talk) (s, m) m'

/-- No frame is refused on the way, as far as the answers go. -/
def Fits (depth : Nat) (talk : Dialogue) (x : Option Step × Machine) : Prop :=
  ∀ told m, told <+: talk → Visits depth told x m → m.control = .none → ¬ m.Refuses

variable {depth : Nat} {talk : Dialogue} {s : Option Step} {m m' n : Machine} {o : Option Outcome}

/-- If nothing is said on the way, there is only one. -/
theorem Leaves.unique {x : Option Step × Machine} {o' : Option Outcome}
    (leaves : Leaves depth [] x o m) (leaves' : Leaves depth talk x o' m') :
    talk = [] ∧ o' = o ∧ m' = m := by
  generalize none_said : ([] : Dialogue) = silent at leaves
  induction leaves with
  | back le =>
    cases leaves' with
    | back => exact ⟨rfl, rfl, rfl⟩
    | pass lt => exact absurd le (Nat.not_le.2 lt)
    | answer lt => exact absurd le (Nat.not_le.2 lt)
  | pass lt awake _ ih =>
    cases leaves' with
    | back le => exact absurd le (Nat.not_le.2 lt)
    | pass _ _ rest => exact ih rest none_said
    | answer _ asleep => exact absurd asleep awake
  | answer => cases none_said

theorem Leaves.pass_iff (lt : depth < m.frames.size) (awake : m.control ≠ .suspend) :
    Leaves depth talk (s, m) o m' ↔ Leaves depth talk m.pass o m' := by
  constructor
  · intro leaves
    cases leaves with
    | back le => exact absurd le (Nat.not_le.2 lt)
    | pass _ _ rest => exact rest
    | answer _ asleep => exact absurd asleep awake
  · exact .pass lt awake

theorem Fits.here (fits : Fits depth talk (s, m)) (lt : depth < m.frames.size)
    (calm : m.control = .none) : ¬ m.Refuses :=
  fits [] m List.nil_prefix (.here lt) calm

theorem Fits.pass (fits : Fits depth talk (s, m)) (lt : depth < m.frames.size)
    (awake : m.control ≠ .suspend) : Fits depth talk m.pass := by
  intro told n before visits
  exact fits told n before (.pass lt awake visits)

theorem Fits.answer {reply : Reply Value} (fits : Fits depth ((m.pending, reply) :: talk) (s, m))
    (lt : depth < m.frames.size) (asleep : m.control = .suspend) :
    Fits depth talk (none, m.answer reply) := by
  intro told n before visits
  exact fits _ n (List.cons_prefix_cons.2 ⟨rfl, before⟩) (.answer lt asleep visits)

/-! ### What a caller sees -/

/-- What a caller sees of a machine: all but how many checkpoints and assertions there have been.
The operation that is awaited belongs to the dialogue with the host. -/
def view (m : Machine) : Machine :=
  { m with checkpoints := 0, report := none, pending := none }

theorem view_release (m : Machine) (f : Frame) : (m.release f).view = m.view.release f := by
  cases f <;> rfl

theorem view_releaseAll (m : Machine) (above : List Frame) :
    (m.releaseAll above).view = m.view.releaseAll above := by
  induction above generalizing m with
  | nil => rfl
  | cons f above ih => exact (ih (m.release f)).trans (by rw [view_release]; rfl)

theorem abort_eq (m : Machine) :
    m.abort =
      { m.releaseAll m.frames.toList with
        frames := .empty
        control := .none
        pending := none
        openQuotes := 0
        openParams := 0 } :=
  rfl

/-- How an error is dealt with depends only on what a caller sees. -/
theorem view_raiseError (m : Machine) (e : LocatedError) :
    (m.view.raiseError e).1 = (m.raiseError e).1 ∧
      (m.view.raiseError e).2.view = (m.raiseError e).2.view := by
  rcases exists_split Frame.attemptHeight? m.frames.toList with free |
    ⟨above, f, rest, height, frames, passed, found⟩
  · have same : m.view.abort.view = m.abort.view := by
      have released := m.view_releaseAll m.view.frames.toList
      rw [abort_eq, abort_eq, ← released]
      rfl
    rw [Machine.raiseError_of_passed free, Machine.raiseError_of_passed (m := m.view) free]
    exact ⟨rfl, same⟩
  · obtain ⟨below, split, _⟩ := Stack.split?_of_append frames passed found
    have split' : m.view.frames.split? Frame.attemptHeight? = some (above, height, below) := split
    simp only [Machine.raiseError, split, split', ← view_releaseAll]
    exact ⟨rfl, rfl⟩

theorem raiseError_of_view (same : n.view = m.view) (e : LocatedError) :
    (n.raiseError e).1 = (m.raiseError e).1 ∧
      (n.raiseError e).2.view = (m.raiseError e).2.view := by
  have left := m.view_raiseError e
  have right := n.view_raiseError e
  rw [same] at right
  exact ⟨right.1.symm.trans left.1, right.2.symm.trans left.2⟩

/-- An error takes away the frames that are no attempts as if they had been given up before. -/
theorem raiseError_of_append {above below : List Frame} (frames : m.frames.toList = above ++ below)
    (passed : ∀ f ∈ above, f.attemptHeight? = none) (e : LocatedError) :
    m.raiseError e =
      ({ m.releaseAll above with frames := .ofList below } : Machine).raiseError e := by
  rcases exists_split Frame.attemptHeight? below with free |
    ⟨between, f, rest, height, rfl, free, found⟩
  · have all : ∀ f ∈ m.frames.toList, f.attemptHeight? = none := by
      rw [frames]
      exact List.forall_mem_append.2 ⟨passed, free⟩
    have lower := (m.releaseAll above).releaseAll_withFrames below (.ofList below)
    rw [Machine.raiseError_of_passed all, Machine.raiseError_of_passed free, abort_eq, abort_eq,
      frames, releaseAll_append, Stack.toList_ofList, lower]
  · rw [← List.append_assoc] at frames
    obtain ⟨lower, split, left⟩ := Stack.split?_of_append frames
      (List.forall_mem_append.2 ⟨passed, free⟩) found
    obtain ⟨lower', split', left'⟩ := Stack.split?_of_append
      (s := .ofList (between ++ f :: rest)) (Stack.toList_ofList _) free found
    have same : lower' = lower := Stack.ext (left'.trans left.symm)
    simp only [Machine.raiseError, split, split', same, releaseAll_append, releaseAll_withFrames]

end Machine

/-! ### Machines that differ in their grounds only -/

namespace Alike

variable {A B : Ground} {p : Pairing} {k : Nat} {m n : Machine}

theorem floors_eq (alike : Alike A B p [] [] m n) : m.operands.floors = A.floors := alike.floors

theorem saved_eq (alike : Alike A B p [] [] m n) (entering : A.entering = 0) :
    m.scopes.saved = A.saved ∧ n.scopes.saved = B.saved := by
  obtain ⟨u, v, left, right, same, depth⟩ := alike.saved
  rw [callsIn_nil, entering] at depth
  cases same with
  | nil => exact ⟨left, right⟩
  | cons => cases depth

/-- With nothing above the grounds and with the same identities, two machines differ in what their
grounds are. -/
theorem view_eq (alike : Alike A B p [] [] m n) (same : .self k ≤ p) (items : B.items = A.items)
    (entering : A.entering = 0) :
    n.view =
      { m.view with
        frames := .ofList B.frames
        operands := ⟨m.operands.items, B.floors⟩
        scopes := ⟨m.scopes.active, B.saved⟩ } := by
  have eq (i j : Nat) (paired : p.rel i j) : j = i := Pairing.eq_of_self_le same paired
  have registry : n.registry = m.registry := alike.registers.registry.eq eq
  have control : n.control = m.control := alike.registers.control.eq eq
  have maxFrames : n.maxFrames = m.maxFrames := alike.registers.maxFrames
  have nextId : n.nextId = m.nextId := by
    rw [alike.nextId, alike.nextId', Pairing.right_eq_of_self_le same]
  have frames : n.frames = .ofList B.frames := Stack.ext alike.frames'
  have operands : n.operands = ⟨m.operands.items, B.floors⟩ := by
    obtain ⟨u, v, left, right, values⟩ := alike.items
    have above : v = u := eq_of_forall₂ (fun _ _ vw => vw.eq eq) values
    have stack : n.operands.items = m.operands.items := by
      apply Stack.ext
      rw [left, right, above, items]
    have floors : n.operands.floors = B.floors := alike.floors'
    rw [← stack, ← floors]
  have scopes : n.scopes = ⟨m.scopes.active, B.saved⟩ := by
    rw [← (alike.saved_eq entering).2, ← alike.active.eq eq]
  unfold Machine.view
  rw [registry, control, maxFrames, nextId, frames, operands, scopes, alike.openQuotes,
    alike.openParams, alike.origin]

end Alike

end Catena
