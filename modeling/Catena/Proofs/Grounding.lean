import Catena.Proofs.Moments

set_option autoImplicit false

/-!
The program below what runs. Whatever runs on top of a program leaves it where it is, at the bottom,
as long as the run goes on; only a run that has failed has no frames. A run is done when the program
is gone and no container is open.
-/

namespace Catena

namespace Machine

variable {m m' : Machine} {ahead rest : List Token}

/-! ### Running code -/

/-- No container is open and the program is there, below what runs. -/
structure Grounded (ahead : List Token) (m : Machine) : Prop where
  last : m.frames.toList.getLast? = some (.program ahead)
  quiet : m.isCollecting = false

/-- Something has ended the run, or left the program at the bottom. -/
def Grounds (ahead : List Token) (x : Option Step × Machine) : Prop :=
  (∃ e, x.1 = some (.failed e)) ∨ x.2.Grounded ahead

theorem last_of_append {above rest frames : List Frame} {f p : Frame}
    (split : frames = above ++ f :: rest) (last : frames.getLast? = some p) :
    (f :: rest).getLast? = some p := by
  rw [split, List.getLast?_append] at last
  simpa [List.getLast?_cons] using last

theorem last_below {above rest frames : List Frame} {f p : Frame}
    (split : frames = above ++ f :: rest) (last : frames.getLast? = some p) (other : f ≠ p) :
    rest.getLast? = some p := by
  have lower := last_of_append split last
  cases rest with
  | nil => exact absurd (Option.some.inj lower) other
  | cons g rest =>
    rw [List.getLast?_cons_cons] at lower
    exact lower

theorem last_above {new rest : List Frame} {p : Frame} (last : rest.getLast? = some p) :
    (new ++ rest).getLast? = some p := by
  rw [List.getLast?_append, last]
  rfl

theorem Grounded.raiseError (grounded : m.Grounded ahead) (e : LocatedError) :
    Grounds ahead (ending (m.raiseError e)) := by
  rcases exists_split Frame.attemptHeight? m.frames.toList with free |
    ⟨above, f, rest, height, frames, passed, found⟩
  · rw [raiseError_of_passed free]
    exact .inl ⟨e, rfl⟩
  · obtain ⟨below, split, lower⟩ := Stack.split?_of_append frames passed found
    have other : f ≠ .program ahead := by
      rintro rfl
      cases found
    right
    simp only [Machine.raiseError, split]
    constructor
    · change below.toList.getLast? = _
      rw [lower]
      exact last_below frames grounded.last other
    · exact (m.isCollecting_releaseAll above).trans grounded.quiet

theorem Grounded.interrupt (grounded : m.Grounded ahead) (signal : Signal) :
    Grounds ahead (ending (m.interrupt signal)) := by
  cases signal with
  | error e => exact grounded.raiseError _
  | _ => exact .inr ⟨grounded.last, grounded.quiet⟩

theorem Grounded.afterAdvance {x : EStateM.Result Signal Machine Tick}
    (grounded : (Exec.left x).Grounded ahead) : Grounds ahead (afterAdvance x) := by
  cases x with
  | error signal m' => exact Grounded.interrupt grounded signal
  | ok tick m' =>
    cases tick with
    | internal => exact .inr grounded
    | checkpoint => exact .inr ⟨grounded.last, grounded.quiet⟩

theorem Grounded.afterSignal {x : EStateM.Result Signal Machine Unit}
    (grounded : (Exec.left x).Grounded ahead) : Grounds ahead (afterSignal x) := by
  cases x with
  | error signal m' => exact Grounded.interrupt grounded signal
  | ok _ m' => exact .inr grounded

section

variable (grounded : m.Grounded ahead)
include grounded

/-- Dealing with a frame above the program. -/
theorem Grounded.advance {f : Frame} {below : Stack Frame}
    (top : m.frames.toList = f :: below.toList) (other : f.isProgram = false) :
    (Exec.left (Exec.advance f below m)).Grounded ahead := by
  have split : m.frames.toList = [] ++ f :: below.toList := top
  have lower : below.toList.getLast? = some (.program ahead) := by
    apply last_below split grounded.last
    rintro rfl
    cases other
  obtain ⟨gone, new, rest, taken, reframed⟩ := Exec.reframes_advance top
  have frames := reframed.frames
  rw [top] at frames
  constructor
  · rw [reframed.frames']
    apply last_above
    rcases List.prefix_cons_iff.1 taken with rfl | ⟨none, rfl, nothing⟩
    · rw [List.nil_append] at frames
      rw [← frames, ← top]
      exact grounded.last
    · rw [List.prefix_nil.1 nothing] at frames
      cases frames
      exact lower
  · apply Bool.eq_false_iff.2
    intro collecting
    rcases (reframed.quiet collecting).2 with before | ⟨tokens, program⟩
    · cases grounded.quiet.symm.trans before
    · subst program
      cases frames
      cases other

theorem Grounded.leaveLoop : (Exec.left (Exec.leaveLoop m)).Grounded ahead := by
  have quiet (above : List Frame) : (m.releaseAll above).isCollecting = false :=
    (m.isCollecting_releaseAll above).trans grounded.quiet
  rcases exists_split Frame.loopEdge? m.frames.toList with free |
    ⟨above, f, rest, isLoop, frames, passed, found⟩
  · -- A break stops at the program at the latest.
    cases free _ (List.mem_of_getLast? grounded.last)
  · obtain ⟨below, split, lower⟩ := Stack.split?_of_append frames passed found
    simp only [Exec.leaveLoop, split]
    cases isLoop with
    | true =>
      have other : f ≠ .program ahead := by
        rintro rfl
        cases found
      refine ⟨?_, quiet above⟩
      change below.toList.getLast? = _
      rw [lower]
      exact last_below frames grounded.last other
    | false =>
      refine ⟨?_, quiet above⟩
      change (m.frames.drop above.length).toList.getLast? = _
      rw [Stack.toList_drop, frames, List.drop_left]
      exact last_of_append frames grounded.last

theorem Grounded.replaceCall (target : Closure Value) :
    (Exec.left (Exec.replaceCall target m)).Grounded ahead := by
  rcases exists_split Frame.callFloor? m.frames.toList with free |
    ⟨above, f, rest, floor, frames, passed, found⟩
  · rw [Exec.replaceCall_of_passed free]
    exact grounded
  · obtain ⟨below, split, lower⟩ := Stack.split?_of_append frames passed found
    have other : f ≠ .program ahead := by
      rintro rfl
      cases found
    rw [Exec.replaceCall_eq split]
    generalize entered : ({ m.releaseAll above with
      frames := m.frames.drop above.length
      scopes := (m.releaseAll above).scopes.leave.enter target.activation } : Machine) = m₁
    have frames₁ : m₁.frames.toList = f :: rest := by
      rw [← entered]
      simp [frames]
    have quiet₁ : m₁.isCollecting = false := by
      rw [← entered]
      exact (m.isCollecting_releaseAll above).trans grounded.quiet
    obtain ⟨new, adds, _⟩ := Exec.works_bindParameters target m₁
    have quiet : (Exec.left (Exec.bindParameters target m₁)).isCollecting = false := by
      rw [isCollecting, adds.openQuotes, adds.openParams]
      exact quiet₁
    have kept := adds.frames
    simp only [Bind.bind, EStateM.bind]
    cases ran : Exec.bindParameters target m₁ with
    | error signal m' =>
      rw [ran] at kept quiet
      refine ⟨?_, quiet⟩
      rw [kept, frames₁]
      exact last_above (last_of_append frames grounded.last)
    | ok _ m' =>
      rw [ran] at quiet
      refine ⟨?_, quiet⟩
      change ([Frame.body target.body, .call target floor] ++ below.toList).getLast? = _
      rw [lower]
      exact last_above (last_below frames grounded.last other)

theorem Grounded.calm : ({ m with control := .none } : Machine).Grounded ahead :=
  ⟨grounded.last, grounded.quiet⟩

theorem Grounded.heed : Grounds ahead m.heed := by
  unfold Machine.heed
  cases m.control with
  | none => exact .inr grounded
  | suspend => exact .inr grounded
  | throw e => exact grounded.calm.raiseError e
  | «break» => exact Grounded.afterSignal grounded.calm.leaveLoop
  | tailCall target => exact Grounded.afterSignal (grounded.calm.replaceCall target)

end

/-! ### The end of a run -/

theorem pass_of_end (calm : m.control = .none) (frames : m.frames.toList = [.program []]) :
    m.pass = (none, { m with frames := .empty }) := by
  rw [pass_of_calm calm, turn_of_frames (s := .empty) frames]
  rfl

theorem pass_of_unclosed (calm : m.control = .none) (empty : m.frames.toList = [])
    (collecting : m.isCollecting = true) :
    m.pass = (some (.failed (m.locate .unclosed)), m.abort) := by
  have failed : m.fail .unclosed = (.failed (m.locate .unclosed), m.abort) := by
    apply raiseError_of_passed
    rw [empty]
    exact List.forall_mem_nil _
  rw [pass_of_calm calm, turn, Stack.pop?_eq_none_iff.2 empty, finish, if_pos collecting, failed]
  rfl

theorem pass_of_done (calm : m.control = .none) (empty : m.frames.toList = [])
    (quiet : m.isCollecting = false) : m.pass = (some .done, m) := by
  rw [pass_of_calm calm, turn, Stack.pop?_eq_none_iff.2 empty, finish,
    if_neg (Bool.eq_false_iff.1 quiet)]
  rfl

theorem turn_done (turned : m.turn = (some .done, m')) :
    m.frames.toList = [] ∧ m.isCollecting = false ∧ m' = m := by
  rcases m.passing_turn with passing | ⟨empty, quiet, done⟩
  · exact absurd (congrArg Prod.fst turned) passing.1
  · exact ⟨empty, quiet, congrArg Prod.snd (turned.symm.trans done)⟩

theorem heed_ne_done (m : Machine) : m.heed.1 ≠ some .done := by
  rcases m.passing_heed with passing | ⟨_, asleep⟩
  · exact passing.1
  · simp [asleep]

theorem done_of_pass (passed : m.pass = (some .done, m')) :
    m.frames.toList = [] ∧ m.control = .none ∧ m.isCollecting = false := by
  by_cases calm : m.control = .none
  · rw [pass_of_calm calm] at passed
    obtain ⟨empty, quiet, _⟩ := turn_done passed
    exact ⟨empty, calm, quiet⟩
  · rw [pass_of_control calm] at passed
    exact absurd (congrArg Prod.fst passed) m.heed_ne_done

theorem done_of_proceeds {R : Machine → Machine → Prop} (proceeds : m.Proceeds R .done m') :
    m'.frames.toList = [] := by
  generalize said : Step.done = s at proceeds
  induction proceeds with
  | last turned _ =>
    subst said
    obtain ⟨empty, _, rfl⟩ := turn_done turned
    exact empty
  | more _ _ _ ih => exact ih said

/-- A run is done when there are no frames left. -/
theorem done_of_step (stepped : m.step = (.done, m')) : m'.frames.toList = [] := by
  have steps := m.stepsBy_step
  rw [stepped] at steps
  cases steps with
  | last heeded _ => exact absurd (congrArg Prod.fst heeded) m.heed_ne_done
  | more _ _ rest => exact done_of_proceeds rest

theorem SettlesIn.exists_ends {k : Nat} {o : Outcome} (settles : m.SettlesIn k o m') :
    ∃ m₁, m.Reaches m₁ ∧ m₁.Ends o m' := by
  induction settles with
  | last ends => exact ⟨_, .refl, ends⟩
  | more moves _ ih =>
    obtain ⟨m₁, reaches, ends⟩ := ih
    exact ⟨m₁, .head moves reaches, ends⟩

/-! ### Moves as moments -/

theorem resume_eq_answer (free : m.pending = none) : m.resume none = m.answer .nothing := by
  rw [Machine.answer, ← free]

/-- What a move is for the moments of a run. -/
theorem Moves.reaches (moves : m.Moves m') : Moment.Reaches (.running m) (.running m') := by
  cases moves with
  | @pass s _ awake passed on =>
    cases s with
    | some s =>
      rw [← act_result] at passed
      exact Moment.reaches_of_last passed
    | none =>
      have next := Moment.Next.act m
      rw [goes_of_pass passed] at next
      exact .single next
  | answer asleep pending waited => exact .single (.answered _ asleep)
  | resume asleep free =>
    rw [resume_eq_answer free]
    exact .single (.answered .nothing asleep)

theorem Reaches.moments (reaches : m.Reaches m') :
    Moment.Reaches (.running m) (.running m') := by
  induction reaches with
  | refl => exact .refl
  | tail _ moves ih => exact ih.trans moves.reaches

end Machine

end Catena
