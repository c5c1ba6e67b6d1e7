import Catena.Proofs.Attempt
import Catena.Proofs.Collecting
import Catena.Proofs.Taking

set_option autoImplicit false

/-!
Which errors an attempt catches. It is there for all that fails inside of it, and it does catch what
an element throws while the attempt is open, and what the frames throw that are left meanwhile. But
signals take frames away before they are found to be errors: a break on its way to a loop that is
not there, a tail call on its way to the running closure. An attempt among these frames misses the
error, and where no other one is open the run fails. This is the only way past an attempt.
-/

namespace Catena

namespace Machine

variable {m m' : Machine} {e : LocatedError}

/-! ### Acts that end a step -/

theorem signalled_ne_failed (signal : Signal) :
    m.signalled signal ≠ .goes (some (.failed e)) m' := by
  intro same
  cases signal <;> cases same

theorem actAfterAdvance_ne_failed (x : EStateM.Result Signal Machine Tick) :
    actAfterAdvance x ≠ .goes (some (.failed e)) m' := by
  intro same
  cases x with
  | ok tick _ => cases tick <;> cases same
  | error signal m₁ => exact m₁.signalled_ne_failed signal same

theorem actAfterSignal_ne_failed (x : EStateM.Result Signal Machine Unit) :
    actAfterSignal x ≠ .goes (some (.failed e)) m' := by
  intro same
  cases x with
  | ok _ _ => cases same
  | error signal m₁ => exact m₁.signalled_ne_failed signal same

/-- A run fails by an error that is thrown, and in no other way. -/
theorem act_ne_failed : m.act ≠ .goes (some (.failed e)) m' := by
  intro acted
  rw [act] at acted
  split at acted
  · split at acted
    · split at acted <;> cases acted
    · exact actAfterAdvance_ne_failed _ acted
  · cases acted
  · cases acted
  · exact actAfterSignal_ne_failed _ acted
  · exact actAfterSignal_ne_failed _ acted

end Machine

/-! ### Attempts that stay -/

/-- As long as no attempt is among the frames that go, all attempts stay. -/
theorem Machine.Reframed.attempt_of_kept {gone new rest below : List Frame} {height : Nat}
    {m m' : Machine} (reframed : m.Reframed gone new rest m')
    (kept : ∀ f ∈ gone, f.attemptHeight? = none)
    (upheld : .attempt height :: below <:+ m.frames.toList) :
    .attempt height :: below <:+ m'.frames.toList := by
  obtain ⟨above, frames⟩ := upheld
  rcases append_split (reframed.frames.symm.trans frames.symm) with ⟨mid, rfl, _⟩ | ⟨mid, _, rfl⟩
  · cases kept (.attempt height) (by simp)
  · exact ⟨new ++ mid, by rw [reframed.frames', List.append_assoc]⟩

/-- The attempt below the frames `above` is given up for an error: a signal takes it away, and then
there is an error and not what the signal asks for. A break takes away all frames above the edge of
its activation and has found no loop there. A tail call takes away all frames above the call that it
replaces, and then the other closure cannot be called. -/
inductive Machine.GivesUp (m : Machine) (above : List Frame) : Prop
  | break (control : m.control = .break) (inside : ∀ f ∈ above, f.loopEdge? = none)
      (astray : m.frames.toList.findSome? Frame.loopEdge? ≠ some true) : GivesUp m above
  | tailCall {target : Closure Value} {e : RuntimeError} {thrown : Machine}
      (control : m.control = .tailCall target) (inside : ∀ f ∈ above, f.callFloor? = none)
      (called : ∃ f ∈ m.frames.toList, f.callFloor? ≠ none)
      (unbound : Exec.replaceCall target { m with control := .none } = .error (.error e) thrown) :
      GivesUp m above

/-! ### What signals take away -/

section

variable {α β : Type} {read? : α → Option β} {front above lower rest : List α} {a x : α}

/-- What is found in a list, but not in its front part, is at the place after that or below it. -/
theorem suffix_of_split (split : front ++ a :: lower = above ++ x :: rest)
    (passed : ∀ y ∈ front, read? y = none) (found : read? x ≠ none) :
    (a = x ∧ lower = rest) ∨ x :: rest <:+ lower := by
  rcases append_split split with ⟨mid, rfl, _⟩ | ⟨mid, _, cut⟩
  · exact absurd (passed x (List.mem_append_right _ List.mem_cons_self)) found
  · cases mid with
    | nil => exact .inl (List.cons.inj cut)
    | cons y mid => exact .inr ⟨mid, (List.cons.inj cut).2.symm⟩

theorem suffix_of_found (split : front ++ a :: lower = above ++ rest)
    (passed : ∀ y ∈ front, read? y = none) (found : ∃ y ∈ above, read? y ≠ none) :
    rest <:+ lower := by
  obtain ⟨y, member, here⟩ := found
  obtain ⟨upper, mid, rfl⟩ := List.append_of_mem member
  rw [List.append_assoc, List.cons_append] at split
  have kept : rest <:+ mid ++ rest := List.suffix_append mid rest
  rcases suffix_of_split split passed here with ⟨_, rfl⟩ | beneath
  · exact kept
  · exact (kept.trans (List.suffix_cons y _)).trans beneath

end

namespace Exec

variable (m : Machine)

/-- A break finds a loop, or else it is an error. -/
theorem leaveLoop_eq :
    leaveLoop m = if m.frames.toList.findSome? Frame.loopEdge? = some true
      then .ok () (left (leaveLoop m))
      else .error (.error .breakOutsideLoop) (left (leaveLoop m)) := by
  rcases exists_split Frame.loopEdge? m.frames.toList with free |
    ⟨above, f, lower, isLoop, frames, passed, found⟩
  · rw [leaveLoop_of_passed free, List.findSome?_eq_none_iff.2 free]
    rfl
  · have first : m.frames.toList.findSome? Frame.loopEdge? = some isLoop := by
      rw [frames, List.findSome?_append, List.findSome?_eq_none_iff.2 passed, List.findSome?_cons,
        found]
      rfl
    obtain ⟨below, split, _⟩ := Stack.split?_of_append frames passed found
    simp only [leaveLoop, split, first]
    cases isLoop <;> rfl

/-- A break takes away everything down to the nearest loop, and this too, or to the edge that it
cannot pass. -/
theorem frames_leaveLoop :
    ((∀ f ∈ m.frames.toList, f.loopEdge? = none) ∧ (left (leaveLoop m)).frames.toList = []) ∨
    ∃ above f lower isLoop, m.frames.toList = above ++ f :: lower ∧
      (∀ g ∈ above, g.loopEdge? = none) ∧ f.loopEdge? = some isLoop ∧
      (left (leaveLoop m)).frames.toList = if isLoop then lower else f :: lower := by
  rcases exists_split Frame.loopEdge? m.frames.toList with free |
    ⟨above, f, lower, isLoop, frames, passed, found⟩
  · rw [leaveLoop_of_passed free]
    exact .inl ⟨free, rfl⟩
  · obtain ⟨below, split, rfl⟩ := Stack.split?_of_append frames passed found
    refine .inr ⟨above, f, _, isLoop, frames, passed, found, ?_⟩
    simp only [leaveLoop, split]
    cases isLoop with
    | true => rfl
    | false =>
      have here : (m.frames.drop above.length).toList = f :: below.toList := by simp [frames]
      exact here

theorem leaveLoop_suffix : (left (leaveLoop m)).frames.toList <:+ m.frames.toList := by
  rcases frames_leaveLoop m with ⟨_, after⟩ | ⟨above, f, lower, isLoop, frames, _, _, after⟩
  · exact after ▸ List.nil_suffix
  · rw [after, frames]
    cases isLoop with
    | true => exact (List.suffix_cons f lower).trans (List.suffix_append _ _)
    | false => exact List.suffix_append _ _

/-- A tail call takes away what is above the running closure, and puts another one in its place,
which has taken its arguments, unless that fails. Without a closure nothing happens. -/
theorem replaceCall_cases (target : Closure Value) :
    ((∀ f ∈ m.frames.toList, f.callFloor? = none) ∧
      replaceCall target m = .error (.error .tailCallOutsideFunction) m) ∨
    ∃ above d floor lower, m.frames.toList = above ++ .call d floor :: lower ∧
      (∀ f ∈ above, f.callFloor? = none) ∧
      ((∃ e m', replaceCall target m = .error (.error e) m' ∧
          m'.frames.toList = .call d floor :: lower) ∨
        ∃ args m', replaceCall target m = .ok () m' ∧
          m'.frames.toList = .body target.body :: .call target floor :: lower ∧
          args.length = target.arity ∧ m.operands.toList = m'.operands.toList ++ args) := by
  rcases exists_split Frame.callFloor? m.frames.toList with free |
    ⟨above, f, lower, floor, frames, passed, found⟩
  · exact .inl ⟨free, replaceCall_of_passed free target⟩
  · obtain ⟨below, split, rfl⟩ := Stack.split?_of_append frames passed found
    obtain ⟨d, rfl⟩ := Frame.callFloor?_eq_some found
    refine .inr ⟨above, d, floor, _, frames, passed, ?_⟩
    rw [replaceCall_eq split]
    generalize entered : ({ m.releaseAll above with
      frames := m.frames.drop above.length
      scopes := (m.releaseAll above).scopes.leave.enter target.activation } : Machine) = m₁
    have frames₁ : m₁.frames.toList = .call d floor :: below.toList := by simp [← entered, frames]
    -- Floors and scopes are released, but no operand is touched before the arguments are taken.
    have same : m₁.operands.toList = m.operands.toList := by
      rw [← entered, Machine.releaseAll_eq]
      rfl
    have steady := steady_bindParameters target m₁
    simp only [Bind.bind, EStateM.bind]
    cases bound : bindParameters target m₁ with
    | ok _ m₂ =>
      obtain ⟨args, arguments, operands⟩ := (absorbs_of_bindParameters bound).arguments
      exact .inr ⟨args, _, rfl, rfl, arguments, same.symm.trans operands⟩
    | error signal m₂ =>
      rw [bound] at steady
      obtain ⟨⟨unmoved, _⟩, e, rfl, _⟩ := steady
      exact .inl ⟨e, m₂, rfl, (congrArg Stack.toList unmoved).trans frames₁⟩

variable {m} {own below : List Frame} {f : Frame}

/-- A break that goes past all frames above one takes it away, unless this is an edge. -/
theorem leaveLoop_past (frames : m.frames.toList = own ++ f :: below)
    (passed : ∀ g ∈ own, g.loopEdge? = none) (inner : f.loopEdge? ≠ some false) :
    (left (leaveLoop m)).frames.toList <:+ below := by
  rcases frames_leaveLoop m with ⟨_, after⟩ | ⟨above, g, lower, isLoop, frames', _, found, after⟩
  · exact after ▸ List.nil_suffix
  · rw [after]
    rcases suffix_of_split (frames.symm.trans frames') passed (by simp [found]) with
      ⟨rfl, same⟩ | beneath
    · -- The frame itself is where the break stops, so it is a loop.
      cases isLoop with
      | true => exact same ▸ List.suffix_refl _
      | false => exact absurd found inner
    · cases isLoop with
      | true => exact (List.suffix_cons g _).trans beneath
      | false => exact beneath

end Exec

section

variable {m thrown : Machine} {e : LocatedError} {above below : List Frame} {height : Nat}

theorem Frame.isCall_of_callFloor?_none {f : Frame} (found : f.callFloor? = none) :
    f.isCall = false := by
  cases f <;> first | rfl | cases found

namespace Machine

theorem actAfterSignal_eq_throws {x : EStateM.Result Signal Machine Unit}
    (acted : actAfterSignal x = .throws e thrown) : ∃ error, x = .error (.error error) thrown := by
  cases x with
  | ok _ _ => cases acted
  | error signal m' =>
    cases signal with
    | error error =>
      cases acted
      exact ⟨error, rfl⟩
    | _ => cases acted

/-- What is given up is gone when the error is thrown. -/
theorem GivesUp.gone (givesUp : m.GivesUp above)
    (frames : m.frames.toList = above ++ .attempt height :: below) :
    ∃ e thrown, m.act = .throws e thrown ∧ thrown.frames.toList <:+ below := by
  cases givesUp with
  | «break» control inside astray =>
    have ran := (Exec.leaveLoop_eq { m with control := .none }).trans (if_neg astray)
    have acted : m.act = actAfterSignal (Exec.leaveLoop { m with control := .none }) := by
      rw [act, control]
    refine ⟨_, _, acted.trans (congrArg actAfterSignal ran), ?_⟩
    exact Exec.leaveLoop_past (m := { m with control := .none }) frames inside
      (Option.some_ne_none false).symm
  | @tailCall target e thrown control inside called unbound =>
    refine ⟨_, thrown, by rw [act, control]; simp only [unbound]; rfl, ?_⟩
    rcases Exec.replaceCall_cases { m with control := .none } target with
      ⟨free, _⟩ | ⟨_, d, floor, lower, frames', _, ⟨_, _, ran, left⟩ | ⟨_, _, ran, _⟩⟩
    · obtain ⟨f, member, call⟩ := called
      exact absurd (free f member) call
    · cases unbound.symm.trans ran
      rw [left]
      rcases suffix_of_split (frames.symm.trans frames') inside (Option.some_ne_none floor) with
        ⟨same, _⟩ | beneath
      · cases same
      · exact beneath
    · cases unbound.symm.trans ran

section

variable (stays : ¬ m.GivesUp above) (frames : m.frames.toList = above ++ .attempt height :: below)
include stays frames

/-- A break that is an error and does not give the attempt up has met an edge above it. -/
theorem attempt_of_break (control : m.control = .break) {error : RuntimeError}
    (ran : Exec.leaveLoop { m with control := .none } = .error (.error error) thrown) :
    .attempt height :: below <:+ thrown.frames.toList := by
  have astray : m.frames.toList.findSome? Frame.loopEdge? ≠ some true := fun loop => by
    have goes := (Exec.leaveLoop_eq { m with control := .none }).trans (if_pos loop)
    cases goes.symm.trans ran
  have edge : ∃ f ∈ above, f.loopEdge? ≠ none := by
    by_contra free
    exact stays (.break control (by simpa using free) astray)
  rcases Exec.frames_leaveLoop { m with control := .none } with
    ⟨free, _⟩ | ⟨_, f, lower, isLoop, frames', passed, _, left⟩
  · obtain ⟨f, member, here⟩ := edge
    exact absurd (free f (frames ▸ List.mem_append_left _ member)) here
  · have kept := suffix_of_found (frames'.symm.trans frames) passed edge
    rw [ran] at left
    cases isLoop with
    | true => exact left ▸ kept
    | false => exact left ▸ kept.trans (List.suffix_cons f lower)

/-- A tail call that is an error and does not give the attempt up would replace a call above it, or
there is no call at all. -/
theorem attempt_of_tailCall {target : Closure Value} (control : m.control = .tailCall target)
    {error : RuntimeError}
    (ran : Exec.replaceCall target { m with control := .none } = .error (.error error) thrown) :
    .attempt height :: below <:+ thrown.frames.toList := by
  rcases Exec.replaceCall_cases { m with control := .none } target with
    ⟨_, failed⟩ | ⟨_, d, floor, lower, frames', passed, ⟨_, _, failed, left⟩ | ⟨_, _, goes, _⟩⟩
  · cases failed.symm.trans ran
    exact ⟨above, frames.symm⟩
  · have call : ∃ f ∈ above, f.callFloor? ≠ none := by
      by_contra free
      have called : ∃ f ∈ m.frames.toList, f.callFloor? ≠ none :=
        ⟨.call d floor, frames' ▸ List.mem_append_right _ List.mem_cons_self,
          Option.some_ne_none floor⟩
      exact stays (.tailCall control (by simpa using free) called ran)
    cases failed.symm.trans ran
    have kept := suffix_of_found (frames'.symm.trans frames) passed call
    exact left ▸ kept.trans (List.suffix_cons _ lower)
  · cases goes.symm.trans ran

/-- What is not given up is still there when an error is thrown. -/
theorem attempt_of_not_givesUp (acted : m.act = .throws e thrown) :
    .attempt height :: below <:+ thrown.frames.toList := by
  have upheld : .attempt height :: below <:+ m.frames.toList := ⟨above, frames.symm⟩
  rw [act] at acted
  cases control : m.control with
  | none =>
    simp only [control] at acted
    cases top : m.frames.pop? with
    | none =>
      rw [Stack.pop?_eq_none_iff.1 top] at frames
      simp at frames
    | some r =>
      obtain ⟨f, lower⟩ := r
      simp only [top] at acted
      obtain ⟨gone, new, rest, within, reframed⟩ :=
        (Exec.reframes_advance (Stack.pop?_eq_some_iff.1 top)).actAfterAdvance
      rw [acted] at reframed
      refine reframed.attempt_of_kept (fun g member => ?_) upheld
      obtain rfl := List.mem_singleton.1 (within.subset member)
      cases g with
      | attempt height' => cases acted
      | _ => rfl
  | suspend =>
    simp only [control] at acted
    cases acted
  | throw e' =>
    simp only [control] at acted
    cases acted
    exact upheld
  | «break» =>
    simp only [control] at acted
    obtain ⟨error, ran⟩ := actAfterSignal_eq_throws acted
    exact attempt_of_break stays frames control ran
  | tailCall target =>
    simp only [control] at acted
    obtain ⟨error, ran⟩ := actAfterSignal_eq_throws acted
    exact attempt_of_tailCall stays frames control ran

end

/-- Where all attempts are given up, none is left for the error. -/
theorem attempts_gone
    (givesUp : ∀ above height below, m.frames.toList = above ++ .attempt height :: below →
      m.GivesUp above)
    (frames : m.frames.toList = above ++ .attempt height :: below) :
    ∃ e thrown, m.act = .throws e thrown ∧ ∀ f ∈ thrown.frames.toList, f.attemptHeight? = none := by
  obtain ⟨e, thrown, acted, pre, left⟩ := (givesUp _ _ _ frames).gone frames
  refine ⟨e, thrown, acted, ?_⟩
  rcases exists_split Frame.attemptHeight? thrown.frames.toList with free |
    ⟨upper, f, lower, height', split, _, here⟩
  · exact free
  · -- An attempt that is left would have been given up as well, so it cannot be left.
    obtain rfl := Frame.attemptHeight?_eq_some here
    have also : m.frames.toList =
        (above ++ .attempt height :: (pre ++ upper)) ++ .attempt height' :: lower := by
      rw [frames, ← left, split]
      simp
    obtain ⟨_, _, acted', shorter⟩ := (givesUp _ _ _ also).gone also
    cases acted.symm.trans acted'
    have lengths := shorter.length_le
    rw [split, List.length_append, List.length_cons] at lengths
    omega

end Machine

/-- An error that is thrown while an attempt is open goes to the innermost attempt that is left,
which is that attempt or one inside of it. -/
theorem Running.caught_inside (running : Running thrown) (rooted : thrown.Rooted)
    (upheld : .attempt height :: below <:+ thrown.frames.toList) (e : LocatedError) :
    ∃ upper height' lower m', thrown.frames.toList = upper ++ .attempt height' :: lower ∧
      (∀ f ∈ upper, f.attemptHeight? = none) ∧ below.length ≤ lower.length ∧
      thrown.raiseError e = (.checkpoint, m') ∧ thrown.Caught e height' upper lower m' := by
  obtain ⟨above, frames⟩ := upheld
  rcases exists_split Frame.attemptHeight? thrown.frames.toList with free |
    ⟨upper, f, lower, height', split, innermost, here⟩
  · cases free (.attempt height) (by simp [← frames])
  · obtain rfl := Frame.attemptHeight?_eq_some here
    obtain ⟨m', raised, caught⟩ := running.caught rooted split innermost e
    refine ⟨upper, height', lower, m', split, innermost, ?_, raised, caught⟩
    rcases append_split (split.symm.trans frames.symm) with ⟨mid, rfl, _⟩ | ⟨mid, _, inside⟩
    · cases innermost (.attempt height) (by simp)
    · have lengths := congrArg List.length inside
      simp only [List.length_append, List.length_cons] at lengths
      omega

end

/-- In every state of a run on an idle machine, with an attempt open at the last act of a step: the
step fails if and only if a signal has given up all attempts for an error. Whatever else is thrown
there, be it by an element, by a frame that is left, by an operation that was awaited or by a
signal, becomes an operand in the place of the attempt that stays, or of one inside of it. -/
theorem failed_iff_givesUp {m₀ m₁ m now m' : Machine} {s : Step} {above below : List Frame}
    {height : Nat} (idle : m₀.Idle) (loaded : m₀.Loaded m₁) (course : m₁.Course m)
    (within : m.Within now) (last : now.act.result = (some s, m'))
    (frames : now.frames.toList = above ++ .attempt height :: below) :
    m.step = (s, m') ∧
    ((∃ e, s = .failed e) ↔ ∀ above height below,
      now.frames.toList = above ++ .attempt height :: below → now.GivesUp above) ∧
    (¬ now.GivesUp above → ∀ e thrown, now.act = .throws e thrown → s = .checkpoint ∧
      ∃ upper height' lower, thrown.frames.toList = upper ++ .attempt height' :: lower ∧
        (∀ f ∈ upper, f.attemptHeight? = none) ∧ below.length ≤ lower.length ∧
        thrown.Caught e height' upper lower m') := by
  have sound : (Moment.running m₁).Sound := loaded.sound idle
  have caught {above below : List Frame} {height : Nat}
      (frames : now.frames.toList = above ++ .attempt height :: below)
      (stays : ¬ now.GivesUp above) (e : LocatedError) (thrown : Machine)
      (acted : now.act = .throws e thrown) : s = .checkpoint ∧
        ∃ upper height' lower, thrown.frames.toList = upper ++ .attempt height' :: lower ∧
          (∀ f ∈ upper, f.attemptHeight? = none) ∧ below.length ≤ lower.length ∧
          thrown.Caught e height' upper lower m' := by
    have throws : m.Throws e thrown := ⟨now, within, acted⟩
    have way := throws.reaches idle loaded course
    have running : Running thrown := Moment.Reaches.sound way sound
    have rooted : thrown.Rooted := Moment.Reaches.rooted way sound (loaded.rooted idle)
    obtain ⟨upper, height', lower, after, split, innermost, inside, raised, caught⟩ :=
      running.caught_inside rooted (Machine.attempt_of_not_givesUp stays frames acted) e
    rw [acted, Act.result, raised] at last
    cases last
    exact ⟨rfl, upper, height', lower, split, innermost, inside, caught⟩
  refine ⟨course.step_eq sound within last, ⟨?_, fun givesUp => ?_⟩, caught frames⟩
  · rintro ⟨e, failed⟩ above height below frames
    by_contra stays
    cases acted : now.act with
    | goes said after =>
      rw [acted, Act.result, failed] at last
      cases last
      exact Machine.act_ne_failed acted
    | throws e' thrown => cases failed.symm.trans (caught frames stays e' thrown acted).1
  · obtain ⟨e, thrown, acted, none⟩ := Machine.attempts_gone givesUp frames
    rw [acted, Act.result, Machine.raiseError_of_passed none] at last
    cases last
    exact ⟨e, rfl⟩

/-! ### A closure that makes an attempt -/

/-- A closure that breaks off a loop, if there is one. -/
def Closure.breaking : Closure Value :=
  ⟨2, some "f", [.op (.primitive .break) .none], none, .empty⟩

/-- A closure that takes an operand. -/
def Closure.taking : Closure Value := ⟨3, some "h", [], some ⟨[⟨"x", none⟩], none⟩, .empty⟩

/-- A closure that attempts some code and then goes on. It knows one that breaks off a loop. -/
def Closure.trying (code more : List Value) : Closure Value :=
  ⟨0, some "g", .quote 1 code :: .op (.primitive .attempt) .none :: more, none,
    ⟨[("f", .closure breaking)]⟩⟩

/-- The machine that calls this closure. -/
def Machine.trying (code more : List Value) : Machine :=
  { registry := .standard
    scopes := ⟨⟨[("g", .closure (.trying code more))]⟩, []⟩
    nextId := 4 }

/-- The machine when the attempt has been opened. -/
def Machine.tried (code more : List Value) : Machine :=
  { Machine.trying code more with
    operands := ⟨.empty, [0]⟩
    scopes := (Machine.trying code more).scopes.enter (Closure.trying code more).activation
    frames := .ofList
      [.body code, .attempt 0, .body more, .call (Closure.trying code more) 0, .body []]
    checkpoints := 3 }

theorem Machine.idle_trying (code more : List Value) : (Machine.trying code more).Idle :=
  ⟨rfl, rfl, rfl, rfl, rfl, rfl⟩

theorem Machine.course_trying (code more : List Value) :
    ((Machine.trying code more).loadValue (.ref "g" .none)).Course (.tried code more) := by
  let called := ((Machine.trying code more).loadValue (.ref "g" .none)).turn.2
  have first : ((Machine.trying code more).loadValue (.ref "g" .none)).Course called :=
    .step (s := .checkpoint) .start (step_of_turn rfl rfl) (by decide)
  have second : ((Machine.trying code more).loadValue (.ref "g" .none)).Course called.turn.2 :=
    .step (s := .checkpoint) first (step_of_turn rfl rfl) (by decide)
  have top : called.turn.2.frames.pop? = some (.body (.op (.primitive .attempt) .none :: more),
      .ofList [.call (Closure.trying code more) 0, .body []]) := rfl
  have popped : called.turn.2.operands.pop = .ok (.quote 1 code, ⟨.empty, [0]⟩) := rfl
  have opened : called.turn.2.turn = (some .checkpoint, .tried code more) :=
    turn_attempt top popped (show 2 + 3 ≤ 100000 by decide)
  exact .step (s := .checkpoint) second (step_of_turn rfl opened) (by decide)

/-- The machine when the closure inside the attempt has broken off. -/
def Machine.broken : Machine :=
  { (Machine.tried [.ref "f" .none] []).turn.2 with
    frames := .ofList
      [.body [], .call Closure.breaking 0, .body [], .attempt 0, .body [],
        .call (Closure.trying [.ref "f" .none] []) 0, .body []]
    control := .break
    checkpoints := 5 }

/-- A break that finds no loop, in a closure that is called inside an attempt, is caught. -/
theorem failed_iff_givesUp_call :
    ∃ e thrown m',
      ((Machine.trying [.ref "f" .none] []).loadValue (.ref "g" .none)).Course .broken ∧
      Machine.broken.act = .throws e thrown ∧ Machine.broken.step = (.checkpoint, m') ∧
      (∃ upper height lower, thrown.Caught e height upper lower m') ∧
      m'.operands.toList = [.error e] := by
  let called := (Machine.tried [.ref "f" .none] []).turn.2
  have first : ((Machine.trying [.ref "f" .none] []).loadValue (.ref "g" .none)).Course called :=
    .step (s := .checkpoint) (Machine.course_trying _ _) (Machine.step_of_turn rfl rfl) (by decide)
  have signals : Exec.operation (.primitive .break) { Machine.broken with
      control := .none, checkpoints := 4 } =
      .error .break { Machine.broken with control := .none, checkpoints := 4 } := rfl
  have raised : called.turn = (some .checkpoint, .broken) :=
    Machine.turn_of_signal (m := called) rfl signals
  have course := Machine.Course.step first (Machine.step_of_turn rfl raised) (by decide)
  have stays : ¬ Machine.broken.GivesUp [.body [], .call Closure.breaking 0, .body []] := by
    rintro (⟨_, inside, _⟩ | ⟨control, _⟩)
    · cases inside (.call Closure.breaking 0) (by simp)
    · cases control
  have frames : Machine.broken.frames.toList =
      [.body [], .call Closure.breaking 0, .body []] ++ .attempt 0 ::
        [.body [], .call (Closure.trying [.ref "f" .none] []) 0, .body []] := rfl
  obtain ⟨step, _, caught⟩ := failed_iff_givesUp (Machine.idle_trying _ _) (.value _) course
    (.here _) rfl frames
  obtain ⟨_, upper, height, lower, _, _, _, caught⟩ := caught stays _ _ rfl
  exact ⟨_, _, _, course, rfl, step, ⟨upper, height, lower, caught⟩, rfl⟩

/-- The machine with a tail call to a closure that cannot be called. -/
def Machine.replacing : Machine :=
  { (Machine.tried [.closure .taking, .op (.primitive .tailCall) .none] []).turn.2 with
    operands := ⟨.empty, [0]⟩
    frames := .ofList
      [.body [], .attempt 0, .body [],
        .call (Closure.trying [.closure .taking, .op (.primitive .tailCall) .none] []) 0, .body []]
    control := .tailCall .taking
    checkpoints := 5 }

/-- The program `{ break } try`. -/
def attemptedBreak : List Token :=
  [⟨.opening .quote, .none⟩, ⟨.name "break", .none⟩, ⟨.closing .quote, .none⟩,
    ⟨.name "try", .none⟩]

/-- The machine when this program has broken off. -/
def Machine.astray : Machine :=
  { Machine.new .standard with
    frames := .ofList [.body [], .attempt 0, .program []]
    control := .break
    nextId := 1
    checkpoints := 5 }

theorem Machine.course_astray :
    ((Machine.new .standard).load attemptedBreak).Course .astray := by
  let start := (Machine.new .standard).load attemptedBreak
  let quoted : Machine :=
    { Machine.new .standard with
      operands := ⟨.ofList [.quote 0 [.op (.primitive .break) .none]], []⟩
      nextId := 1
      checkpoints := 3 }
  let tried : Machine :=
    { Machine.astray with
      frames := .ofList [.body [.op (.primitive .break) .none], .attempt 0, .program []]
      control := .none
      checkpoints := 4 }
  have first : start.Course start.turn.2 :=
    .step (s := .checkpoint) .start (step_of_turn rfl rfl) (by decide)
  have second : start.Course start.turn.2.turn.2 :=
    .step (s := .checkpoint) first (step_of_turn rfl rfl) (by decide)
  have third : start.Course (quoted.load [⟨.name "try", .none⟩]) :=
    .step (s := .checkpoint) second (step_of_turn rfl rfl) (by decide)
  have ran : Exec.token ⟨.name "try", .none⟩ (quoted.load []) =
      .ok () { tried with checkpoints := 3 } :=
    (Exec.token_of_builtin rfl rfl rfl).trans (Exec.invokeOperation_attempt rfl (by decide))
  have opened : (quoted.load [⟨.name "try", .none⟩]).turn = (some .checkpoint, tried) :=
    congrArg afterAdvance (advance_of_token ran)
  have signals : Exec.operation (.primitive .break)
      { Machine.astray with control := .none, checkpoints := 4 } =
      .error .break { Machine.astray with control := .none, checkpoints := 4 } := rfl
  have raised : tried.turn = (some .checkpoint, .astray) := turn_of_signal (m := tried) rfl signals
  exact .step (.step third (step_of_turn rfl opened) (by decide)) (step_of_turn rfl raised)
    (by decide)

/-- The break of `{ break } try` is an error inside the attempt, and yet the run fails. So it is
with a tail call inside an attempt to a closure that cannot be called. An attempt may also have been
finished by the step that fails. -/
theorem failure_past_attempt :
    (∃ m e m', ((Machine.new .standard).load attemptedBreak).Course m ∧ m.control = .break ∧
      m.frames.toList = [.body [], .attempt 0, .program []] ∧ e.error = .breakOutsideLoop ∧
      m.step = (.failed e, m')) ∧
    (∃ m e m', ((Machine.trying [.closure .taking, .op (.primitive .tailCall) .none] []).loadValue
        (.ref "g" .none)).Course m ∧
      m.attemptAt? 3 = some 0 ∧ m.step = (.failed e, m')) ∧
    ∃ m e m', ((Machine.trying [] [.ref "x" .none]).loadValue (.ref "g" .none)).Course m ∧
      m.attemptAt? 3 = some 0 ∧ m.step = (.failed e, m') := by
  have sound (code more : List Value) :
      (Moment.running ((Machine.trying code more).loadValue (.ref "g" .none))).Sound :=
    (Machine.Loaded.value _).sound (Machine.idle_trying code more)
  refine ⟨?_, ?_, ?_⟩
  · have course := Machine.course_astray
    have idle : (Machine.new .standard).Idle := ⟨rfl, rfl, rfl, rfl, rfl, rfl⟩
    have started := (Machine.Loaded.program attemptedBreak).sound idle
    exact ⟨_, _, _, course, rfl, rfl, rfl, course.step_eq started (.here _) rfl⟩
  · let pushed := (Machine.tried [.closure .taking, .op (.primitive .tailCall) .none] []).turn.2
    have first : ((Machine.trying [.closure .taking, .op (.primitive .tailCall) .none] []).loadValue
        (.ref "g" .none)).Course pushed :=
      .step (s := .checkpoint) (Machine.course_trying _ _) (Machine.step_of_turn rfl rfl)
        (by decide)
    have signals : Exec.operation (.primitive .tailCall) { pushed with
        frames := Machine.replacing.frames } =
        .error (.tailCall .taking) { Machine.replacing with control := .none, checkpoints := 4 } :=
      rfl
    have raised : pushed.turn = (some .checkpoint, .replacing) :=
      Machine.turn_of_signal (m := pushed) rfl signals
    have course := Machine.Course.step first (Machine.step_of_turn rfl raised) (by decide)
    exact ⟨_, _, _, course, rfl, course.step_eq (sound _ _) (.here _) rfl⟩
  · have course := Machine.course_trying [] [.ref "x" .none]
    exact ⟨_, _, _, course, rfl,
      course.step_eq (sound _ _) (.next rfl (.next rfl (.here _))) rfl⟩

end Catena
