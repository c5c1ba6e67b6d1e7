import Catena.Proofs.Leaving

set_option autoImplicit false

/-!
The stage of a call. A closure that has nothing left to do but to call another one can hand its
activation over to it. An ordinary call stacks a second activation on the first one, with a floor of
the same height and a saved scope of its own; a tail call has only one. What runs there cannot see
the difference, and when it returns or fails, the activation that is left over goes without a trace.
-/

namespace Catena

section

variable {c : Closure Value} {floor : Nat} {above rest : List Frame} {m : Machine}

theorem Machine.turn_of_checkLeft (frames : m.frames.toList = .call c floor :: rest)
    (checked : Exec.checkLeft c floor m = .ok () m) :
    m.turn = (none, { m.release (.call c floor) with frames := .ofList rest }) := by
  rw [Machine.turn_of_frames (s := .ofList rest) frames]
  simp only [Exec.advance, Exec.leaveCall, Bind.bind, EStateM.bind, checked]
  rfl

theorem Machine.turn_of_checkLeft_error {e : RuntimeError}
    (frames : m.frames.toList = .call c floor :: rest)
    (checked : Exec.checkLeft c floor m = .error (.error e) m) :
    m.turn = Machine.ending (m.interrupt (.error e)) := by
  rw [Machine.turn_of_frames (s := .ofList rest) frames]
  simp only [Exec.advance, Exec.leaveCall, Bind.bind, EStateM.bind, checked]
  rfl

theorem Exec.leaveLoop_of_call (frames : m.frames.toList = above ++ .call c floor :: rest)
    (passed : ∀ f ∈ above, f.loopEdge? = none) :
    Exec.leaveLoop m = .error (.error .breakOutsideLoop)
      { m.releaseAll above with frames := .ofList (.call c floor :: rest) } := by
  obtain ⟨below, split, _⟩ := Stack.split?_of_append frames passed (by rfl)
  have here : m.frames.drop above.length = .ofList (.call c floor :: rest) := by
    apply Stack.ext
    simp [frames]
  simp only [Exec.leaveLoop, split, here]

end

/-- A closure `outer` that has only a call left to do: the frames below its own and their floors,
the operands under its floor, the scope that it runs in and those of its callers. -/
structure Stage where
  outer : Closure Value
  below : List Frame
  items : List Value
  inner : Scope
  caller : Scope
  saved : List Scope
  quiet : ∀ signature ∈ outer.signature, signature.returns = none

namespace Stage

/-- The frames that an ordinary call leaves there. -/
def remnant (S : Stage) : List Frame := [.body [], .call S.outer S.items.length]

/-- A closure runs in the place of the outer one. -/
def tail (S : Stage) (c : Closure Value) : Ground where
  frames := .call c S.items.length :: S.below
  floors := S.items.length :: floorsOf S.below
  items := S.items
  saved := S.caller :: S.saved
  floor_eq := rfl

/-- A closure runs on top of the outer one. -/
def plain (S : Stage) (c : Closure Value) : Ground where
  frames := .call c S.items.length :: (S.remnant ++ S.below)
  floors := S.items.length :: S.items.length :: floorsOf S.below
  items := S.items
  saved := S.inner :: S.caller :: S.saved
  floor_eq := rfl

/-- The closure is entered on top of the outer one and its parameters are bound. -/
def entered (S : Stage) : Ground where
  frames := S.remnant ++ S.below
  floors := S.items.length :: floorsOf S.below
  items := S.items
  saved := S.inner :: S.caller :: S.saved
  floor_eq := rfl

/-- A closure runs after a tail call in one machine and after an ordinary call in the other. -/
inductive Inside (S : Stage) : Machine → Machine → Prop
  | intro {c p k own own' m n} : .self k ≤ p → Alike (S.tail c) (S.plain c) p own own' m n →
      S.Inside m n

/-- What a part of a step has led to: either both machines are still at it, or the one that made the
tail call is back. Then the other one will be, without anything else happening. -/
inductive Next (S : Stage) : Option Step × Machine → Option Step × Machine → Prop
  | inside {s s' m n} : S.Inside m n → S.Next (s, m) (s', n)
  | left {s s' m n n'} : m.frames.size ≤ S.below.length →
      Machine.Leaves S.below.length [] (s', n) (s.bind Step.outcome?) n' → n'.view = m.view →
      S.Next (s, m) (s', n)

variable {S : Stage} {p : Pairing} {k : Nat} {c d : Closure Value} {own own' : List Frame}
  {m n : Machine}

theorem Inside.size_lt (inside : S.Inside m n) :
    S.below.length < m.frames.size ∧ S.below.length < n.frames.size := by
  cases inside with
  | intro _ alike =>
    have left := congrArg List.length alike.frames
    have right := congrArg List.length alike.frames'
    simp only [Stack.length_eq, List.length_append, tail, plain, List.length_cons] at left right
    omega

/-- Once the closure is given up, nothing is left of the difference. -/
theorem view_released (alike : Alike (S.tail c) (S.plain c) p [] [] m n) (same : .self k ≤ p) :
    ({ n.releaseAll (.call c S.items.length :: S.remnant) with frames := .ofList S.below } :
      Machine).view =
    ({ m.releaseAll [.call c S.items.length] with frames := .ofList S.below } : Machine).view := by
  have view := alike.view_eq same rfl rfl
  have floors := alike.floors_eq
  have saved := (alike.saved_eq rfl).1
  change ({ (n.releaseAll _).view with frames := .ofList S.below } : Machine) =
    { (m.releaseAll _).view with frames := .ofList S.below }
  rw [Machine.view_releaseAll, Machine.view_releaseAll, view]
  simp [Machine.view, Machine.releaseAll, Machine.release, remnant, Operands.allow, Scopes.leave,
    floors, saved, tail, plain]

/-- An error that nothing catches above the frames of the caller is the same error to the caller. -/
theorem Next.raised {fs fs' : List Frame} (frames : m.frames.toList = fs ++ S.below)
    (frames' : n.frames.toList = fs' ++ S.below) (passed : ∀ f ∈ fs, f.attemptHeight? = none)
    (passed' : ∀ f ∈ fs', f.attemptHeight? = none)
    (same : ({ n.releaseAll fs' with frames := .ofList S.below } : Machine).view =
      ({ m.releaseAll fs with frames := .ofList S.below } : Machine).view) (e : LocatedError) :
    S.Next (Machine.ending (m.raiseError e)) (Machine.ending (n.raiseError e)) := by
  have gone := Machine.size_raiseError frames passed e
  have gone' := Machine.size_raiseError frames' passed' e
  obtain ⟨step, view⟩ := Machine.raiseError_of_view same e
  rw [← Machine.raiseError_of_append frames passed, ← Machine.raiseError_of_append frames' passed']
    at step view
  have back : Machine.Leaves S.below.length [] (Machine.ending (n.raiseError e))
      ((some (n.raiseError e).1).bind Step.outcome?) (n.raiseError e).2 := .back gone'
  rw [step] at back
  exact .left gone back view

theorem Next.escapes {e : LocatedError} (same : .self k ≤ p)
    (alike : Alike (S.tail c) (S.plain c) p own own' m n)
    (passed : ∀ f ∈ own, f.attemptHeight? = none) (passed' : ∀ f ∈ own', f.attemptHeight? = none) :
    S.Next (Machine.ending (m.raiseError e)) (Machine.ending (n.raiseError e)) := by
  rw [Machine.raiseError_of_append alike.frames passed,
    Machine.raiseError_of_append alike.frames' passed']
  refine .raised ?_ ?_ ?_ ?_ (view_released alike.releaseOwn same) e
  · rfl
  · rfl
  · simp [Frame.attemptHeight?]
  · simp [remnant, Frame.attemptHeight?]

theorem Next.ofStepAlike {x y : Step × Machine} (same : .self k ≤ p)
    (step : StepAlike (S.tail c) (S.plain c) p x y) :
    S.Next (Machine.ending x) (Machine.ending y) := by
  cases step with
  | both le alike => exact .inside (.intro (le_trans same le) alike)
  | escapes le alike passed passed' => exact .escapes (le_trans same le) alike passed passed'

theorem Next.ofTurnAlike {x y : Option Step × Machine} (same : .self k ≤ p)
    (turned : TurnAlike (S.tail c) (S.plain c) p x y) : S.Next x y := by
  cases turned with
  | goesOn le alike => exact .inside (.intro (le_trans same le) alike)
  | ends step => exact .ofStepAlike same step

theorem Next.ofEndAlike {r r' : Registers} {x y : EStateM.Result Signal Machine Unit}
    (same : .self k ≤ p)
    (ends : EndAlike (S.tail c) (S.plain c) p (fun _ (_ _ : Unit) => True) r r' x y)
    (fits : ¬ Refused x) (fits' : ¬ Refused y) :
    S.Next (Machine.afterSignal x) (Machine.afterSignal y) := by
  rcases ends.afterSignal with turned | ⟨_, deeper⟩
  · exact .ofTurnAlike same turned
  · exact (deeper.either.elim fits fits').elim

/-! ### Returning -/

theorem checkLeft_related (alike : Alike (S.tail c) (S.plain c) p own own' m n)
    (d : Closure Value) :
    (Exec.checkLeft d S.items.length m = .ok () m ∧ Exec.checkLeft d S.items.length n = .ok () n) ∨
      ∃ e, Exec.checkLeft d S.items.length m = .error (.error e) m ∧
        Exec.checkLeft d S.items.length n = .error (.error e) n := by
  unfold Exec.checkLeft
  cases d.signature with
  | none => exact .inl ⟨rfl, rfl⟩
  | some signature =>
    have same := Parallel.checkReturns_same alike signature (Nat.le_refl S.items.length)
    simp only [Bind.bind, EStateM.bind, Exec.get_apply, same]
    cases m.checkReturns signature S.items.length with
    | ok _ => exact .inl ⟨rfl, rfl⟩
    | error e => exact .inr ⟨e, rfl, rfl⟩

theorem checkLeft_outer (S : Stage) (m : Machine) :
    Exec.checkLeft S.outer S.items.length m = .ok () m := by
  unfold Exec.checkLeft
  have quiet := S.quiet
  cases declared : S.outer.signature with
  | none => rfl
  | some signature =>
    have free : m.checkReturns signature S.items.length = .ok () := by
      rw [Machine.checkReturns, quiet signature declared]
    simp only [Bind.bind, EStateM.bind, Exec.get_apply, free]
    rfl

/-- After an ordinary call the outer closure has only to return. -/
theorem leaves_remnant {s : Option Step} (calm : n.control = .none)
    (frames : n.frames.toList = S.remnant ++ S.below) :
    Machine.Leaves S.below.length [] (s, n) none
      { n.releaseAll S.remnant with frames := .ofList S.below } := by
  let n₁ : Machine := { n with frames := .ofList (.call S.outer S.items.length :: S.below) }
  have first : n.pass = (none, n₁) := by
    rw [Machine.pass_of_calm calm, Machine.turn_of_frames (s := n₁.frames) frames]
    rfl
  have second : n₁.pass = (none, { n.releaseAll S.remnant with frames := .ofList S.below }) := by
    rw [Machine.pass_of_calm (m := n₁) calm]
    exact Machine.turn_of_checkLeft rfl (S.checkLeft_outer n₁)
  have size : S.below.length < n.frames.size := by
    rw [← Stack.length_eq, frames]
    simp only [remnant, List.length_append, List.length_cons]
    omega
  have awake : n.control ≠ .suspend := by
    rw [calm]
    intro h
    cases h
  have size₁ : S.below.length < n₁.frames.size := Nat.lt_succ_self _
  refine .pass size awake ?_
  rw [first]
  refine .pass size₁ awake ?_
  rw [second]
  exact .back (Nat.le_refl _)

theorem Next.returns (same : .self k ≤ p) (alike : Alike (S.tail c) (S.plain c) p [] [] m n)
    (calm : m.control = .none) : S.Next m.turn n.turn := by
  rcases checkLeft_related alike c with ⟨left, right⟩ | ⟨e, left, right⟩
  · rw [Machine.turn_of_checkLeft alike.frames left, Machine.turn_of_checkLeft alike.frames' right]
    refine .left (Nat.le_refl _) (leaves_remnant (alike.calm calm) rfl) ?_
    exact view_released alike same
  · rw [Machine.turn_of_checkLeft_error alike.frames left,
      Machine.turn_of_checkLeft_error alike.frames' right]
    exact .ofStepAlike same (alike.interrupt .error)

/-! ### What the closure does meanwhile -/

section

variable (same : .self k ≤ p) (alike : Alike (S.tail c) (S.plain c) p own own' m n)
include same alike

theorem Next.turn (calm : m.control = .none) (fits : ¬ n.Refuses) : S.Next m.turn n.turn := by
  have frames := alike.same
  cases frames with
  | nil => exact .returns same alike calm
  | cons _ _ =>
    rcases alike.turn with turned | ⟨_, deeper⟩
    · exact .ofTurnAlike same turned
    · -- The ordinary call needs more frames, so it is the one that is refused.
      refine absurd (deeper.1 ?_) fits
      simp [tail, plain]

/-- A break does not leave the closure that it is made in. -/
theorem Next.break :
    S.Next (Machine.afterSignal (Exec.leaveLoop m)) (Machine.afterSignal (Exec.leaveLoop n)) := by
  by_cases passed : ∀ f ∈ own, f.loopEdge? = none
  · have passed' := passed_related Frame.Same.loopEdge? alike.same passed
    rw [Exec.leaveLoop_of_call alike.frames passed, Exec.leaveLoop_of_call alike.frames' passed']
    exact .ofStepAlike same (alike.releaseOwn.interrupt .error)
  · exact .ofEndAlike same (alike.leaveLoop passed) (Exec.not_refused_leaveLoop _)
      (Exec.not_refused_leaveLoop _)

/-- A further tail call puts another closure in the same place in both machines. -/
theorem Next.tailCall {c₁ d₁ : Closure Value} (cd : c₁.Same p.rel d₁) :
    S.Next (Machine.afterSignal (Exec.replaceCall c₁ m))
      (Machine.afterSignal (Exec.replaceCall d₁ n)) := by
  by_cases passed : ∀ f ∈ own, f.callFloor? = none
  · have passed' := passed_related Frame.Same.callFloor? alike.same passed
    have caller : (S.tail c).saved ≠ [] ∧ (S.plain c).saved ≠ [] := by simp [tail, plain]
    rcases alike.replaceGround cd rfl rfl rfl caller passed passed' with
      ⟨q, m', n', le, ran, ran', regrounded⟩ | ⟨q, e, m', n', le, ran, ran', alike'⟩
    · rw [ran, ran']
      have target : d₁ = c₁ := cd.eq fun _ _ paired => Pairing.eq_of_self_le same paired
      subst target
      exact .inside (.intro (c := d₁) (le_trans same le) regrounded)
    · rw [ran, ran']
      exact .ofStepAlike (le_trans same le) (alike'.interrupt .error)
  · exact .ofEndAlike same (alike.replaceCall cd passed) (Exec.not_refused_replaceCall _ _)
      (Exec.not_refused_replaceCall _ _)

end

theorem Inside.control (inside : S.Inside m n) : n.control = m.control := by
  obtain ⟨same, alike⟩ := inside
  exact alike.registers.control.eq fun _ _ paired => Pairing.eq_of_self_le same paired

/-- One part of a step. -/
theorem Inside.pass (inside : S.Inside m n) (awake : m.control ≠ .suspend)
    (fits : n.control = .none → ¬ n.Refuses) : S.Next m.pass n.pass := by
  have control := inside.control
  obtain ⟨same, alike⟩ := inside
  have calm := alike.setControl (a := m.pending) (b := n.pending) (i := m.checkpoints)
    (j := n.checkpoints) .none (by intro h; cases h)
  cases hm : m.control with
  | none =>
    have hn := control.trans hm
    rw [Machine.pass_of_calm hm, Machine.pass_of_calm hn]
    exact .turn same alike hm (fits hn)
  | suspend => exact absurd hm awake
  | throw e =>
    rw [Machine.pass_of_throw hm, Machine.pass_of_throw (control.trans hm)]
    exact .ofStepAlike same (calm.raiseError e)
  | «break» =>
    rw [Machine.pass_of_break hm, Machine.pass_of_break (control.trans hm)]
    exact .break same calm
  | tailCall target =>
    rw [Machine.pass_of_tailCall hm, Machine.pass_of_tailCall (control.trans hm)]
    exact .tailCall same calm (target.same_self fun i => same.1 i i rfl)

/-- Both machines wait for the same operation, and its answer leads on in both of them. -/
theorem Inside.answer (inside : S.Inside m n) (asleep : m.control = .suspend) :
    n.pending = m.pending ∧ ∀ reply, S.Inside (m.answer reply) (n.answer reply) := by
  obtain ⟨same, alike⟩ := inside
  have pending := alike.registers.pending asleep
  constructor
  · change Option.Rel _ m.pending n.pending at pending
    generalize m.pending = a at pending ⊢
    generalize n.pending = b at pending ⊢
    cases pending with
    | none => rfl
    | some ab => rw [ab.eq fun _ _ paired => Pairing.eq_of_self_le same paired]
  · intro reply
    exact .intro same (alike.answer (reply.same_self fun i => same.1 i i rfl))

/-! ### Getting back -/

variable {x y : Option Step × Machine} {talk : Dialogue} {o : Option Outcome} {m' n' : Machine}

theorem Next.leaves (leaves : Machine.Leaves S.below.length talk x o m') (next : S.Next x y)
    (fits : Machine.Fits S.below.length talk y) :
    ∃ n', Machine.Leaves S.below.length talk y o n' ∧ n'.view = m'.view := by
  induction leaves generalizing y with
  | back le =>
    cases next with
    | inside inside => exact absurd le (Nat.not_le.2 inside.size_lt.1)
    | left _ leaves view => exact ⟨_, leaves, view⟩
  | pass lt awake _ ih =>
    cases next with
    | left le => exact absurd le (Nat.not_le.2 lt)
    | inside inside =>
      have lt' := inside.size_lt.2
      have awake' := inside.control ▸ awake
      obtain ⟨n', rest, view⟩ := ih (inside.pass awake (fits.here lt')) (fits.pass lt' awake')
      exact ⟨n', .pass lt' awake' rest, view⟩
  | @answer talk s m reply o m' lt asleep _ ih =>
    cases next with
    | left le => exact absurd le (Nat.not_le.2 lt)
    | inside inside =>
      have lt' := inside.size_lt.2
      have asleep' := inside.control.trans asleep
      obtain ⟨pending, answered⟩ := inside.answer asleep
      rw [← pending] at fits ⊢
      obtain ⟨n', rest, view⟩ := ih (.inside (answered reply)) (fits.answer lt' asleep')
      exact ⟨n', .answer lt' asleep' rest, view⟩

theorem Next.leaves_back (leaves : Machine.Leaves S.below.length talk y o n') (next : S.Next x y)
    (fits : Machine.Fits S.below.length talk y) :
    ∃ m', Machine.Leaves S.below.length talk x o m' ∧ n'.view = m'.view := by
  -- Once the tail call is back, the other machine has only one way to go.
  have returned {s s' : Option Step} {m n n₁ n₂ : Machine} {talk : Dialogue} {o : Option Outcome}
      (le : m.frames.size ≤ S.below.length)
      (leaves : Machine.Leaves S.below.length [] (s', n) (s.bind Step.outcome?) n₁)
      (view : n₁.view = m.view) (leaves' : Machine.Leaves S.below.length talk (s', n) o n₂) :
      ∃ m', Machine.Leaves S.below.length talk (s, m) o m' ∧ n₂.view = m'.view := by
    obtain ⟨rfl, rfl, rfl⟩ := leaves.unique leaves'
    exact ⟨m, .back le, view⟩
  induction leaves generalizing x with
  | back le =>
    cases next with
    | inside inside => exact absurd le (Nat.not_le.2 inside.size_lt.2)
    | left le' leaves view => exact returned le' leaves view (.back le)
  | pass lt awake rest ih =>
    cases next with
    | left le leaves view => exact returned le leaves view (.pass lt awake rest)
    | inside inside =>
      have awake' := inside.control ▸ awake
      obtain ⟨m', rest, view⟩ := ih (inside.pass awake' (fits.here lt)) (fits.pass lt awake)
      exact ⟨m', .pass inside.size_lt.1 awake' rest, view⟩
  | @answer talk s n reply o n' lt asleep rest ih =>
    cases next with
    | left le leaves view => exact returned le leaves view (.answer lt asleep rest)
    | inside inside =>
      have asleep' := inside.control.symm.trans asleep
      obtain ⟨pending, answered⟩ := inside.answer asleep'
      obtain ⟨m', rest, view⟩ := ih (.inside (answered reply)) (fits.answer lt asleep)
      rw [pending]
      exact ⟨m', .answer inside.size_lt.1 asleep' rest, view⟩

theorem Next.leaves_iff (next : S.Next x y) (fits : Machine.Fits S.below.length talk y)
    (seen : Machine) :
    (∃ m', Machine.Leaves S.below.length talk x o m' ∧ m'.view = seen) ↔
      ∃ n', Machine.Leaves S.below.length talk y o n' ∧ n'.view = seen := by
  constructor
  · rintro ⟨m', leaves, rfl⟩
    exact next.leaves leaves fits
  · rintro ⟨n', leaves, rfl⟩
    obtain ⟨m', leaves', view⟩ := next.leaves_back leaves fits
    exact ⟨m', leaves', view.symm⟩

end Stage

end Catena
