import Catena.Proofs.Moments

set_option autoImplicit false

/-!
What an attempt restores. An error that is handed to an attempt takes away everything that was set
up since the attempt was opened: the frames above it, their floors and the scopes of the calls among
them. Operands are cut down to the height that they had, scopes that had been saved are what they
were, and the code after the attempt goes on in the activation that opened it.
-/

namespace Catena

/-! ### From the opening of an attempt to an error -/

/-- The attempt at a position has been open since a machine ran into it. -/
inductive Moment.Held (i : Nat) (before : Machine) : Moment → Prop
  | opened {x : Moment} {height : Nat} : Next (.running before) x → before.attemptAt? i = none →
      x.machine.attemptAt? i = some height → Held i before x
  | still {x y : Moment} {height : Nat} : Held i before x → Next x y →
      y.machine.attemptAt? i = some height → Held i before y

namespace Moment

variable {i height : Nat} {before : Machine} {x y : Moment}

theorem Held.reaches (held : Held i before x) : Reaches (.running before) x := by
  induction held with
  | opened next => exact .single next
  | still _ next _ ih => exact .tail ih next

/-- Every attempt on the stack was opened at some moment and has been open since. -/
theorem Reaches.exists_held (reaches : Reaches x y) (sound : x.Sound)
    (none : x.machine.attemptAt? i = none) (found : y.machine.attemptAt? i = some height) :
    ∃ before, x.Reaches (.running before) ∧ Held i before y := by
  induction reaches generalizing height with
  | refl => cases none.symm.trans found
  | @tail z y reached next ih =>
    cases earlier : z.machine.attemptAt? i with
    | some height' =>
      obtain ⟨before, way, held⟩ := ih earlier
      exact ⟨before, way, .still held next found⟩
    | none =>
      cases z with
      | running m => exact ⟨m, reached, .opened next earlier found⟩
      | thrown e m =>
        cases next with
        | handed =>
          have aligned := Running.aligned (Reaches.sound reached sound)
          obtain ⟨gone, rest, reframed⟩ := Machine.reframed_raiseError aligned e
          cases earlier.symm.trans (reframed.attemptAt?_of_taken found)

/-- As long as the attempt is open, it stands in the activation that has opened it and on the scopes
that were saved then. -/
theorem Held.stands (held : Held i before x) (sound : (running before).Sound) :
    ∃ above height below, x.machine.frames.toList = above ++ .attempt height :: below ∧
      below.length = i ∧
      below.filter Frame.isCall = before.frames.toList.filter Frame.isCall ∧
      x.machine.scopes.saved.drop (callsIn above) = before.scopes.saved := by
  induction held with
  | @opened x height next fresh found =>
    obtain ⟨gone, new, rest, reframed⟩ := next.reframed sound
    obtain ⟨above, below, frames, rfl⟩ := Machine.attemptAt?_eq_some.1 found
    obtain ⟨calls, saved⟩ := reframed.opened frames fresh
    exact ⟨above, height, below, frames, rfl, calls, saved⟩
  | still earlier next found ih =>
    obtain ⟨above, height, below, frames, rfl, calls, saved⟩ := ih
    obtain ⟨gone, new, rest, reframed⟩ := next.reframed (Reaches.sound earlier.reaches sound)
    obtain ⟨above', frames', saved'⟩ := reframed.held frames found
    exact ⟨above', height, below, frames', rfl, calls, saved'.trans saved⟩

end Moment

/-! ### Handing over an error -/

/-- What an attempt makes of an error, in terms of the machine that has thrown it. -/
structure Machine.Caught (thrown : Machine) (e : LocatedError) (height : Nat)
    (above below : List Frame) (after : Machine) : Prop where
  frames : after.frames.toList = below
  floors : after.operands.floors = floorsOf below
  scopes : after.scopes.toList = thrown.scopes.toList.drop (callsIn above)
  operands : after.operands.toList =
    thrown.operands.toList.take (min height thrown.operands.count) ++ [.error e]
  control : after.control = .none
  openQuotes : after.openQuotes = 0
  openParams : after.openParams = 0

namespace Machine.Caught

variable {thrown after : Machine} {e : LocatedError} {height : Nat} {above below : List Frame}

theorem saved (caught : thrown.Caught e height above below after) :
    after.scopes.saved = thrown.scopes.saved.drop (callsIn above) :=
  calc after.scopes.saved
      = (thrown.scopes.toList.drop (callsIn above)).tail := by rw [← caught.scopes]; rfl
    _ = thrown.scopes.saved.drop (callsIn above) := by rw [List.tail_drop, ← List.drop_tail]; rfl

/-- Counted from the outermost one, the active scope has the place that it had. -/
theorem active (caught : thrown.Caught e height above below after) :
    thrown.scopes.toList.reverse[after.scopes.saved.length]? = some after.scopes.active := by
  have scopes : thrown.scopes.toList =
      thrown.scopes.toList.take (callsIn above) ++ after.scopes.active :: after.scopes.saved := by
    conv_lhs => rw [← List.take_append_drop (callsIn above) thrown.scopes.toList, ← caught.scopes]
    rfl
  rw [scopes]
  simp

end Machine.Caught

theorem Operands.toList_truncate (s : Operands) (height : Nat) :
    (s.truncate height).toList = s.toList.take (min (max height s.floor) s.count) := by
  rw [toList, truncate, Stack.keep, Stack.toList_drop, List.reverse_drop, Stack.length_eq, toList,
    count]
  congr 1
  omega

theorem Operands.toList_push (s : Operands) (v : Value) : (s.push v).toList = s.toList ++ [v] := by
  rw [toList, push, Stack.toList_push, List.reverse_cons, toList]

/-- Inside an attempt no container is open. -/
theorem Machine.Rooted.quiet {m : Machine} (rooted : m.Rooted) {f : Frame}
    (member : f ∈ m.frames.toList) (other : f.isProgram = false) :
    m.openQuotes = 0 ∧ m.openParams = 0 := by
  have quiet : m.isCollecting ≠ true := fun collecting => by
    cases (rooted.alone collecting f member).symm.trans other
  simpa [isCollecting] using quiet

theorem Running.caught {m : Machine} (running : Running m) (rooted : m.Rooted) {height : Nat}
    {above below : List Frame} (frames : m.frames.toList = above ++ .attempt height :: below)
    (innermost : ∀ f ∈ above, f.attemptHeight? = none) (e : LocatedError) :
    ∃ m', m.raiseError e = (.checkpoint, m') ∧ m.Caught e height above below m' := by
  obtain ⟨lower, split, rfl⟩ := Stack.split?_of_append frames innermost (by rfl)
  have kept := running.aligned.raiseError running.pending e
  have calls : callsIn above ≤ m.scopes.depth := by
    rw [Scopes.depth, running.aligned.saved, frames, callsIn_append]
    omega
  have control : (m.releaseAll above).control = .none :=
    (congrArg Registers.control (m.registers_releaseAll above)).trans running.control
  have quiet := rooted.quiet (f := .attempt height) (by simp [frames]) rfl
  rw [Machine.raiseError, split] at kept ⊢
  have floors : (m.releaseAll above).operands.floors = floorsOf lower.toList := kept.aligned.floors
  -- The floor that is left is not above the height that the attempt has recorded.
  have reach : (m.releaseAll above).operands.floor ≤ height := by
    have layered := running.aligned.layered
    rw [frames] at layered
    rw [Operands.floor, floors]
    exact layered.of_append.1.1 height rfl
  refine ⟨_, rfl, ⟨rfl, floors, Machine.scopes_releaseAll calls, ?_, control, ?_, ?_⟩⟩
  · change (((m.releaseAll above).operands.truncate height).push (.error e)).toList = _
    rw [Operands.toList_push, Operands.toList_truncate, Nat.max_eq_left reach,
      Machine.releaseAll_eq]
    rfl
  · change (m.releaseAll above).openQuotes = 0
    rw [Machine.releaseAll_eq]
    exact quiet.1
  · change (m.releaseAll above).openParams = 0
    rw [Machine.releaseAll_eq]
    exact quiet.2

/-! ### Steps that throw -/

/-- A step throws an error. -/
def Machine.Throws (m : Machine) (e : LocatedError) (thrown : Machine) : Prop :=
  ∃ m₁, m.Within m₁ ∧ m₁.act = .throws e thrown

theorem Machine.Loaded.rooted {m₀ m₁ : Machine} (loaded : m₀.Loaded m₁) (idle : m₀.Idle) :
    m₁.Rooted := by
  have alone (m : Machine) (quotes : m.openQuotes = m₀.openQuotes)
      (params : m.openParams = m₀.openParams) (collecting : m.isCollecting = true) :
      ∀ f ∈ m.frames.toList, f.isProgram = true := by
    simp [isCollecting, quotes, params, idle.openQuotes, idle.openParams] at collecting
  cases loaded with
  | program tokens =>
    refine ⟨fun above tokens' below split => ?_, alone _ rfl rfl⟩
    have lengths := congrArg List.length split
    simp only [load, Stack.toList_push, Stack.toList_empty, List.length_append, List.length_cons,
      List.length_nil] at lengths
    exact List.eq_nil_of_length_eq_zero (by omega)
  | value v =>
    refine ⟨fun above tokens' below split => ?_, alone _ rfl rfl⟩
    have member : .program tokens' ∈ (m₀.loadValue v).frames.toList := by simp [split]
    simp [loadValue] at member

theorem Machine.Loaded.attemptAt? {m₀ m₁ : Machine} (loaded : m₀.Loaded m₁) (i : Nat) :
    m₁.attemptAt? i = none := by
  cases found : m₁.attemptAt? i with
  | none => rfl
  | some height =>
    obtain ⟨above, below, frames, _⟩ := attemptAt?_eq_some.1 found
    have member : .attempt height ∈ m₁.frames.toList := by simp [frames]
    cases loaded <;> simp [load, loadValue] at member

/-- Every moment of a run on an idle machine is a sound one. -/
theorem Machine.Throws.reaches {m₀ m₁ m thrown : Machine} {e : LocatedError} (idle : m₀.Idle)
    (loaded : m₀.Loaded m₁) (course : m₁.Course m) (throws : m.Throws e thrown) :
    Moment.Reaches (.running m₁) (.thrown e thrown) := by
  obtain ⟨m₂, within, acted⟩ := throws
  have next := Moment.Next.act m₂
  rw [acted] at next
  exact .tail ((course.reaches (loaded.sound idle)).trans within.reaches) next

/-- The state after an error has been handed to an attempt, in terms of the machine that ran into
the attempt and of the one that has thrown the error. -/
structure Machine.Restored (before thrown : Machine) (e : LocatedError) (height : Nat)
    (below : List Frame) (after : Machine) : Prop where
  frames : after.frames.toList = below
  floors : after.operands.floors = floorsOf below
  /-- The activations are those that were running. -/
  calls : below.filter Frame.isCall = before.frames.toList.filter Frame.isCall
  saved : after.scopes.saved = before.scopes.saved
  /-- The scope of the activation that ran into the attempt; scopes are counted from the
  outermost. -/
  active : thrown.scopes.toList.reverse[before.scopes.depth]? = some after.scopes.active
  operands : after.operands.toList =
    thrown.operands.toList.take (min height thrown.operands.count) ++ [.error e]
  control : after.control = .none
  openQuotes : after.openQuotes = 0
  openParams : after.openParams = 0

/-- Whenever an error is handed to an attempt, in whatever state of a run on an idle machine, the
attempt was opened at some moment and has been open since; everything is restored to what it was
then, the error is pushed and the step ends at a checkpoint. -/
theorem attempt_restores {m₀ m₁ m thrown : Machine} {e : LocatedError} {height : Nat}
    {above below : List Frame} (idle : m₀.Idle) (loaded : m₀.Loaded m₁) (course : m₁.Course m)
    (throws : m.Throws e thrown)
    (frames : thrown.frames.toList = above ++ .attempt height :: below)
    (innermost : ∀ f ∈ above, f.attemptHeight? = none) :
    ∃ before after, Moment.Reaches (.running m₁) (.running before) ∧
      Moment.Held below.length before (.thrown e thrown) ∧ m.step = (.checkpoint, after) ∧
      before.Restored thrown e height below after := by
  have sound : (Moment.running m₁).Sound := loaded.sound idle
  have way := throws.reaches idle loaded course
  have running : Running thrown := Moment.Reaches.sound way sound
  obtain ⟨after, raised, caught⟩ := running.caught
    (Moment.Reaches.rooted way sound (loaded.rooted idle)) frames innermost e
  obtain ⟨before, opened, held⟩ := Moment.Reaches.exists_held way sound
    (loaded.attemptAt? below.length) (Machine.attemptAt?_eq_some.2 ⟨above, below, frames, rfl⟩)
  obtain ⟨above', height', below', frames', depth, calls, saved⟩ :=
    held.stands (Moment.Reaches.sound opened sound)
  obtain ⟨rfl, rest⟩ := List.append_inj' (frames'.symm.trans frames) (by simp [depth])
  obtain ⟨_, rfl⟩ := List.cons.inj rest
  have step : m.step = (.checkpoint, after) := by
    obtain ⟨m₂, within, acted⟩ := throws
    refine course.step_eq sound within ?_
    rw [acted, Act.result, raised]
    rfl
  have scopes : after.scopes.saved = before.scopes.saved := caught.saved.trans saved
  refine ⟨before, after, opened, held, step, caught.frames, caught.floors, calls, scopes, ?_,
    caught.operands, caught.control, caught.openQuotes, caught.openParams⟩
  rw [Scopes.depth, ← scopes]
  exact caught.active

/-- A machine on which `f` is a closure that fails, with a number and a quotation that calls `f`. -/
def Machine.bound : Machine :=
  { registry := .standard
    operands := ⟨.ofList [.quote 1 [.int 1, .ref "f" .none], .int 7], []⟩
    scopes := ⟨⟨[("f", .closure ⟨0, some "f", [.ref "g" .none], none, .empty⟩)]⟩, []⟩
    nextId := 2 }

/-- The machine inside an attempt at the quotation. -/
def Machine.bound.attempting : Machine :=
  { Machine.bound with
    operands := ⟨.ofList [.int 7], []⟩
    frames := .ofList [.body [.int 1, .ref "f" .none], .attempt 1, .body []]
    checkpoints := 1 }

/-- An error inside a closure that is called inside an attempt. -/
theorem attempt_restores_call :
    ∃ m thrown e c, (Machine.bound.loadValue (.op (.primitive .attempt) .none)).Course m ∧
      m.Throws e thrown ∧
      thrown.frames.toList = [.body [], .call c 2, .body []] ++ [.attempt 1, .body []] ∧
      ∃ before after : Machine, m.step = (.checkpoint, after) ∧
        before.Restored thrown e 1 [.body []] after ∧
        after.operands.toList = [.int 7, .error e] := by
  have idle : Machine.bound.Idle := ⟨rfl, rfl, rfl, rfl, rfl, rfl⟩
  have course : (Machine.bound.loadValue (.op (.primitive .attempt) .none)).Course
      Machine.bound.attempting.turn.2.turn.2 :=
    .step (s := .checkpoint)
      (.step (s := .checkpoint)
        (.step .start (Machine.step_of_turn rfl (Machine.turn_attempt rfl rfl (by decide)))
          (by decide))
        (Machine.step_of_turn rfl rfl) (by decide))
      (Machine.step_of_turn rfl rfl) (by decide)
  have throws : Machine.bound.attempting.turn.2.turn.2.Throws _ _ := ⟨_, .here _, rfl⟩
  obtain ⟨before, after, _, _, step, restored⟩ := attempt_restores idle (.value _) course throws
    (show _ = ([.body [], .call _ 2, .body []] : List Frame) ++ .attempt 1 :: [.body []] from rfl)
    (by decide)
  exact ⟨_, _, _, _, course, throws, rfl, before, after, step, restored, restored.operands⟩

end Catena
