import Catena.Proofs.Catching

set_option autoImplicit false

/-!
What a break leaves. It looks for a loop among the frames of the running activation. If there is
one, the innermost is left with everything above it, and the code below goes on; otherwise the
activation is cut down to its own frame, which stays, and an error is raised there.
-/

namespace Catena

/-! ### Giving up the topmost frames -/

theorem foldl_erase_append (gone kept : List Nat) :
    gone.foldl List.erase (gone ++ kept) = kept := by
  induction gone with
  | nil => rfl
  | cons floor gone ih => rw [List.cons_append, List.foldl_cons, List.erase_cons_head, ih]

/-- Giving up the topmost frames leaves the scopes of the activations and the floors of the frames
that remain. -/
theorem Aligned.releaseAll_above {m : Machine} {above rest : List Frame} (aligned : Aligned m)
    (frames : m.frames.toList = above ++ rest) :
    m.releaseAll above =
      { m with
        scopes := m.scopes.leaveMany (callsIn above)
        operands := ⟨m.operands.items, floorsOf rest⟩ } := by
  rw [Machine.releaseAll_eq, aligned.floors, frames, floorsOf_append, foldl_erase_append]

/-- A signal has been dealt with by going down to the frames `rest`, which keep their floors.
Everything else is what it was. -/
def Machine.cutTo (m : Machine) (rest : List Frame) : Machine :=
  { m with
    control := .none
    frames := .ofList rest
    operands := ⟨m.operands.items, floorsOf rest⟩ }

/-! ### The running activation -/

def Frame.isLoop : Frame → Bool
  | .loop _ | .iterate .. => true
  | _ => false

/-- A closure or the program: the frame on which an activation stands. -/
def Frame.isBase (f : Frame) : Bool := f.isCall || f.isProgram

/-- The frames that the running activation has set up, without its own. -/
def Machine.current (m : Machine) : List Frame :=
  m.frames.toList.takeWhile fun f => !f.isBase

/-- The frame of the running activation, and those below it. -/
def Machine.enclosing (m : Machine) : List Frame :=
  m.frames.toList.dropWhile fun f => !f.isBase

theorem Machine.current_append_enclosing (m : Machine) :
    m.current ++ m.enclosing = m.frames.toList :=
  List.takeWhile_append_dropWhile

theorem Machine.isBase_of_mem_current {m : Machine} {f : Frame} (member : f ∈ m.current) :
    f.isBase = false := by
  have kept := List.all_eq_true.1 List.all_takeWhile f member
  simpa using kept

theorem Machine.isBase_of_enclosing {m : Machine} {f : Frame} {rest : List Frame}
    (enclosing : m.enclosing = f :: rest) : f.isBase = true := by
  have head := List.head?_dropWhile_not (fun f : Frame => !f.isBase) m.frames.toList
  rw [show m.frames.toList.dropWhile _ = f :: rest from enclosing] at head
  simpa using head

namespace Frame

variable {f : Frame}

theorem loopEdge?_of_isLoop (loops : f.isLoop = true) : f.loopEdge? = some true := by
  cases f <;> first | rfl | cases loops

theorem loopEdge?_of_isBase (base : f.isBase = true) : f.loopEdge? = some false := by
  cases f <;> first | rfl | cases base

theorem loopEdge?_eq_none (other : f.isLoop = false) (inner : f.isBase = false) :
    f.loopEdge? = none := by
  cases f with
  | program _ | call _ _ => cases inner
  | loop _ | iterate _ _ _ _ => cases other
  | _ => rfl

end Frame

theorem callsIn_eq_zero {frames : List Frame} (inner : ∀ f ∈ frames, f.isBase = false) :
    callsIn frames = 0 := by
  refine List.countP_eq_zero.2 fun f member => ?_
  have both := inner f member
  rw [Frame.isBase, Bool.or_eq_false_iff] at both
  simp [both.1]

/-! ### Breaks -/

section

variable {m : Machine} {above rest : List Frame}

/-- Frames that belong to one activation are given up without leaving a scope. -/
theorem Aligned.releaseAll_eq_cutTo (aligned : Aligned m)
    (frames : m.frames.toList = above ++ rest) (inner : ∀ f ∈ above, f.isBase = false)
    {below : Stack Frame} (lower : below.toList = rest) :
    { ({ m with control := .none } : Machine).releaseAll above with frames := below } =
      m.cutTo rest := by
  have calm : Aligned { m with control := .none } :=
    ⟨aligned.floors, aligned.layered, aligned.covered, aligned.saved⟩
  obtain rfl : below = .ofList rest := Stack.ext lower
  rw [calm.releaseAll_above frames, callsIn_eq_zero inner]
  rfl

/-- A break that finds a loop in its activation. -/
theorem Aligned.leaveLoop_of_loop {loop : Frame} (aligned : Aligned m)
    (frames : m.frames.toList = above ++ loop :: rest) (inner : ∀ f ∈ above, f.isBase = false)
    (passed : ∀ f ∈ above, f.isLoop = false) (loops : loop.isLoop = true) :
    Exec.leaveLoop { m with control := .none } = .ok () (m.cutTo rest) := by
  have edge := Frame.loopEdge?_of_isLoop loops
  obtain ⟨below, split, lower⟩ := Stack.split?_of_append frames
    (fun f member => Frame.loopEdge?_eq_none (passed f member) (inner f member)) edge
  have whole : m.frames.toList = (above ++ [loop]) ++ rest := by
    rw [frames, List.append_assoc, List.singleton_append]
  have plain : loop.isBase = false := by
    cases loop <;> first | rfl | cases loops
  have cut := aligned.releaseAll_eq_cutTo whole
    (List.forall_mem_append.2 ⟨inner, List.forall_mem_singleton.2 plain⟩) lower
  -- The loop itself is dropped without being released, which makes no difference.
  have released : ({ m with control := .none } : Machine).releaseAll (above ++ [loop]) =
      ({ m with control := .none } : Machine).releaseAll above := by
    rw [Machine.releaseAll, List.foldl_append]
    exact Machine.release_of_loop edge
  rw [released] at cut
  simp only [Exec.leaveLoop, split]
  rw [cut]

/-- A break that finds none. -/
theorem Aligned.leaveLoop_of_none (aligned : Aligned m)
    (passed : ∀ f ∈ m.current, f.isLoop = false) :
    Exec.leaveLoop { m with control := .none } =
      .error (.error .breakOutsideLoop) (m.cutTo m.enclosing) := by
  have frames := m.current_append_enclosing.symm
  have inner (f : Frame) (member : f ∈ m.current) := Machine.isBase_of_mem_current member
  have free (f : Frame) (member : f ∈ m.current) : f.loopEdge? = none :=
    Frame.loopEdge?_eq_none (passed f member) (inner f member)
  cases outer : m.enclosing with
  | nil =>
    rw [outer] at frames
    have gone : (Stack.empty : Stack Frame).toList = [] := rfl
    have cut := aligned.releaseAll_eq_cutTo frames inner gone
    rw [List.append_nil] at frames
    rw [Exec.leaveLoop_of_passed (frames ▸ free)]
    simp only [frames]
    rw [cut]
  | cons base rest =>
    have edge := Frame.loopEdge?_of_isBase (Machine.isBase_of_enclosing outer)
    rw [outer] at frames
    obtain ⟨below, split, lower⟩ := Stack.split?_of_append frames free edge
    have here : (m.frames.drop m.current.length).toList = base :: rest := by
      rw [Stack.toList_drop, frames, List.drop_left]
    have cut := aligned.releaseAll_eq_cutTo frames inner here
    simp only [Exec.leaveLoop, split]
    rw [cut]

end

/-- A break in any state of a run on an idle machine. If the running activation is in a loop,
exactly the frames below its innermost loop are left, and the code there goes on; otherwise the
frame of the activation and those below it are left, and an error is raised there. Operands and
scopes are not touched, and the floors are those of the frames that are left. -/
theorem break_leaves_innermost_loop {m₀ m₁ m : Machine} (idle : m₀.Idle) (loaded : m₀.Loaded m₁)
    (course : m₁.Course m) (control : m.control = .break) :
    (∀ above loop below, m.current = above ++ loop :: below →
      (∀ f ∈ above, f.isLoop = false) → loop.isLoop = true →
      m.step = (m.cutTo (below ++ m.enclosing)).proceed) ∧
    ((∀ f ∈ m.current, f.isLoop = false) →
      m.step = (m.cutTo m.enclosing).raiseError (m.locate .breakOutsideLoop)) := by
  obtain ⟨aligned, _⟩ := course.sound (loaded.sound idle)
  constructor
  · intro above loop below current passed loops
    have frames : m.frames.toList = above ++ loop :: (below ++ m.enclosing) := by
      rw [← m.current_append_enclosing, current, List.append_assoc, List.cons_append]
    have inner (f : Frame) (member : f ∈ above) : f.isBase = false :=
      Machine.isBase_of_mem_current (current ▸ List.mem_append_left _ member)
    simp only [Machine.step, control, aligned.leaveLoop_of_loop frames inner passed loops]
    rfl
  · intro passed
    simp only [Machine.step, control, aligned.leaveLoop_of_none passed]
    rfl

/-! ### Breaks out of an attempt and out of a closure -/

/-- A step of two turns. -/
theorem Machine.step_of_turns {m m₁ m₂ : Machine} {s : Step} (calm : m.control = .none)
    (first : m.turn = (none, m₁)) (second : m₁.turn = (some s, m₂)) : m.step = (s, m₂) := by
  rw [step_eq_heed, heed, calm, continueWith, proceed_eq_turn, first, continueWith,
    proceed_eq_turn, second, continueWith]

/-- A machine that knows a closure which breaks off a loop, and has code to be repeated. -/
def Machine.repeating (code : List Value) : Machine :=
  { registry := .standard
    operands := ⟨.ofList [.quote 0 code], []⟩
    scopes := ⟨⟨[("f", .closure .breaking)]⟩, []⟩
    nextId := 4 }

theorem Machine.idle_repeating (code : List Value) : (Machine.repeating code).Idle :=
  ⟨rfl, rfl, rfl, rfl, rfl, rfl⟩

/-- The machine in the loop. -/
def Machine.repeated (code : List Value) : Machine :=
  { Machine.repeating code with
    operands := ⟨.empty, []⟩
    frames := .ofList [.loop code, .body []]
    checkpoints := 1 }

theorem Machine.course_repeating (code : List Value) :
    ((Machine.repeating code).loadValue (.op (.primitive .loop) .none)).Course
      (.repeated code) := by
  have ran : Exec.operation (.primitive .loop)
      { (Machine.repeating code).loadValue (.op (.primitive .loop) .none) with
        frames := .ofList [.body []] } =
      .ok none { Machine.repeated code with checkpoints := 0 } := rfl
  have turned : ((Machine.repeating code).loadValue (.op (.primitive .loop) .none)).turn =
      (some .checkpoint, .repeated code) :=
    turn_of_operation (m := (Machine.repeating code).loadValue _) rfl ran
  exact .step .start (step_of_turn rfl turned) (by decide)

/-- Code that breaks off inside an attempt. -/
def breakingAttempt : List Value :=
  [.quote 1 [.op (.primitive .break) .none], .op (.primitive .attempt) .none]

/-- The machine when this code has broken off. -/
def Machine.attemptBroken : Machine :=
  { Machine.repeated breakingAttempt with
    frames := .ofList
      [.body [], .attempt 0, .body [], .loop breakingAttempt, .body []]
    control := .break
    checkpoints := 4 }

theorem Machine.course_attemptBroken :
    ((Machine.repeating breakingAttempt).loadValue (.op (.primitive .loop) .none)).Course
      .attemptBroken := by
  let pushed := (Machine.repeated breakingAttempt).turn.2.turn.2
  let opened : Machine :=
    { Machine.repeated breakingAttempt with
      frames := .ofList
        [.body [.op (.primitive .break) .none], .attempt 0, .body [], .loop breakingAttempt,
          .body []]
      checkpoints := 3 }
  have first : (Machine.repeated breakingAttempt).step = (.checkpoint, pushed) :=
    step_of_turns rfl rfl rfl
  have second : pushed.step = (.checkpoint, opened) :=
    step_of_turn rfl (turn_attempt (m := pushed) rfl rfl (show 2 + 3 ≤ 100000 by decide))
  have signals : Exec.operation (.primitive .break)
      { Machine.attemptBroken with control := .none, checkpoints := 3 } =
      .error .break { Machine.attemptBroken with control := .none, checkpoints := 3 } := rfl
  have third : opened.step = (.checkpoint, .attemptBroken) :=
    step_of_turn rfl (turn_of_signal (m := opened) rfl signals)
  exact .step (.step (.step (course_repeating _) first (by decide)) second (by decide)) third
    (by decide)

/-- The machine when a closure that is called in the loop has broken off. -/
def Machine.callBroken : Machine :=
  { Machine.repeated [.ref "f" .none] with
    operands := ⟨.empty, [0]⟩
    scopes := (Machine.repeating []).scopes.enter Closure.breaking.activation
    frames := .ofList
      [.body [], .call .breaking 0, .body [], .loop [.ref "f" .none], .body []]
    control := .break
    checkpoints := 3 }

theorem Machine.course_callBroken :
    ((Machine.repeating [.ref "f" .none]).loadValue (.op (.primitive .loop) .none)).Course
      .callBroken := by
  let called := (Machine.repeated [.ref "f" .none]).turn.2.turn.2
  have first : (Machine.repeated [.ref "f" .none]).step = (.checkpoint, called) :=
    step_of_turns rfl rfl rfl
  have signals : Exec.operation (.primitive .break)
      { Machine.callBroken with control := .none, checkpoints := 2 } =
      .error .break { Machine.callBroken with control := .none, checkpoints := 2 } := rfl
  have second : called.step = (.checkpoint, .callBroken) :=
    step_of_turn rfl (turn_of_signal (m := called) rfl signals)
  exact .step (.step (course_repeating _) first (by decide)) second (by decide)

/-- A break inside an attempt leaves the loop around it; one inside a closure does not leave the
loop of the caller. -/
theorem break_leaves_loop_of_activation :
    Machine.attemptBroken.step = (Machine.attemptBroken.cutTo [.body []]).proceed ∧
      Machine.callBroken.step =
        (Machine.callBroken.cutTo
          [.call .breaking 0, .body [], .loop [.ref "f" .none], .body []]).raiseError
          (Machine.callBroken.locate .breakOutsideLoop) := by
  have first := break_leaves_innermost_loop (Machine.idle_repeating _) (.value _)
    Machine.course_attemptBroken rfl
  have second := break_leaves_innermost_loop (Machine.idle_repeating _) (.value _)
    Machine.course_callBroken rfl
  exact ⟨first.1 [.body [], .attempt 0, .body []] (.loop breakingAttempt) [.body []] rfl
    (by decide) rfl, second.2 (by decide)⟩

end Catena
