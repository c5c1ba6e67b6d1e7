import Catena.Proofs.Reframing
import Catena.Proofs.Settling

set_option autoImplicit false

/-!
The moments of a run. A step is made of acts: each goes on or ends the step, or throws an error,
which is then handed to the nearest attempt or ends the run. That an error has been thrown and not
yet been handed on is a moment of its own.
-/

namespace Catena

/-- What a part of a step comes to before errors are dealt with. -/
inductive Act where
  | goes (said : Option Step) (m : Machine)
  | throws (e : LocatedError) (m : Machine)

/-- What it comes to after that. -/
def Act.result : Act → Option Step × Machine
  | .goes said m => (said, m)
  | .throws e m => Machine.ending (m.raiseError e)

namespace Machine

/-- What a signal comes to. -/
def signalled (m : Machine) : Signal → Act
  | .error e => .throws (m.locate e) m
  | signal => .goes (some (m.interrupt signal).1) (m.interrupt signal).2

def actAfterAdvance : EStateM.Result Signal Machine Tick → Act
  | .ok .internal m => .goes none m
  | .ok .checkpoint m => .goes (some m.checkpoint.1) m.checkpoint.2
  | .error signal m => m.signalled signal

def actAfterSignal : EStateM.Result Signal Machine Unit → Act
  | .ok _ m => .goes none m
  | .error signal m => m.signalled signal

/-- One part of a step, up to an error that it throws. -/
def act (m : Machine) : Act :=
  match m.control with
  | .none =>
    match m.frames.pop? with
    | none => if m.isCollecting then .throws (m.locate .unclosed) m else .goes (some .done) m
    | some (frame, below) => actAfterAdvance (Exec.advance frame below m)
  | .suspend => .goes (some .suspended) m
  | .throw e => .throws e { m with control := .none }
  | .break => actAfterSignal (Exec.leaveLoop { m with control := .none })
  | .tailCall target => actAfterSignal (Exec.replaceCall target { m with control := .none })

theorem signalled_result (m : Machine) (signal : Signal) :
    (m.signalled signal).result = ending (m.interrupt signal) := by
  cases signal <;> rfl

theorem act_result (m : Machine) : m.act.result = m.pass := by
  have signalled (x : EStateM.Result Signal Machine Unit) :
      (actAfterSignal x).result = afterSignal x := by
    cases x with
    | ok _ _ => rfl
    | error signal m' => exact m'.signalled_result signal
  rw [act, pass]
  cases control : m.control with
  | none =>
    simp only [turn]
    cases m.frames.pop? with
    | none =>
      simp only [finish, fail]
      split <;> rfl
    | some top =>
      simp only
      cases Exec.advance top.1 top.2 m with
      | ok tick m' => cases tick <;> rfl
      | error signal m' => exact m'.signalled_result signal
  | suspend => simp only [heed, control]; rfl
  | throw e => simp only [heed, control]; rfl
  | «break» => simp only [heed, control]; exact signalled _
  | tailCall target => simp only [heed, control]; exact signalled _

section

variable {m m' : Machine} {f : Frame} {below : Stack Frame} {o : Operation Value} {origin : Origin}
  {more : List Value}

theorem act_of_top (calm : m.control = .none) (top : m.frames.pop? = some (f, below)) :
    m.act = actAfterAdvance (Exec.advance f below m) := by
  simp only [act, calm, top]

variable (calm : m.control = .none)
  (top : m.frames.pop? = some (.body (.op o origin :: more), below))
include calm top

theorem act_of_signal {signal : Signal}
    (raised : Exec.operation o { m with origin, frames := below.push (.body more) } =
      .error signal m') : m.act = m'.signalled signal := by
  rw [act_of_top calm top, Exec.advance_of_signal raised]
  rfl

theorem act_of_operation
    (ran : Exec.operation o { m with origin, frames := below.push (.body more) } = .ok none m') :
    m.act = .goes (some .checkpoint) m'.checkpoint.2 := by
  rw [act_of_top calm top, Exec.advance_of_operation ran]
  rfl

end

end Machine

/-! ### Moments -/

inductive Moment where
  | running (m : Machine)
  | thrown (e : LocatedError) (m : Machine)

namespace Moment

def machine : Moment → Machine
  | .running m => m
  | .thrown _ m => m

def ofAct : Act → Moment
  | .goes _ m => .running m
  | .throws e m => .thrown e m

/-- One moment after another. -/
inductive Next : Moment → Moment → Prop
  | act (m : Machine) : Next (.running m) (ofAct m.act)
  | handed (e : LocatedError) (m : Machine) : Next (.thrown e m) (.running (m.raiseError e).2)
  | answered {m : Machine} (reply : Reply Value) : m.control = .suspend →
      Next (.running m) (.running (m.answer reply))

abbrev Reaches : Moment → Moment → Prop := Relation.ReflTransGen Next

/-- What holds at every moment of a run. -/
def Sound : Moment → Prop
  | .running m => Aligned m ∧ (m.control = .suspend ∨ m.pending = none)
  | .thrown _ m => Running m

end Moment

/-! ### What holds at every moment -/

section

variable {m : Machine}

theorem Running.signalled (running : Running m) (signal : Signal) :
    (Moment.ofAct (m.signalled signal)).Sound := by
  cases signal with
  | error e => exact running
  | _ => exact ⟨(running.interrupt _).aligned, (running.interrupt _).waiting⟩

theorem Running.actAfterSignal {x : EStateM.Result Signal Machine Unit}
    (running : Running (Exec.left x)) : (Moment.ofAct (Machine.actAfterSignal x)).Sound := by
  cases x with
  | ok _ m' => exact ⟨running.aligned, .inr running.pending⟩
  | error signal m' => exact Running.signalled running signal

theorem Running.actAfterAdvance {x : EStateM.Result Signal Machine Tick}
    (running : Running (Exec.left x)) : (Moment.ofAct (Machine.actAfterAdvance x)).Sound := by
  cases x with
  | error signal m' => exact Running.signalled running signal
  | ok tick m' =>
    cases tick with
    | internal => exact ⟨running.aligned, .inr running.pending⟩
    | checkpoint =>
      obtain ⟨floors, layered, covered, saved⟩ := running.aligned
      exact ⟨⟨floors, layered, covered, saved⟩, .inr running.pending⟩

/-- An act of a running machine. -/
theorem Aligned.act (aligned : Aligned m) (waiting : m.control = .suspend ∨ m.pending = none) :
    (Moment.ofAct m.act).Sound := by
  have calm := aligned.calm waiting
  rw [Machine.act]
  cases control : m.control with
  | none =>
    have running : Running m := ⟨aligned, control, waiting.resolve_left (by simp [control])⟩
    simp only
    cases top : m.frames.pop? with
    | none =>
      simp only
      split
      · exact running
      · exact ⟨aligned, waiting⟩
    | some r =>
      obtain ⟨frame, below⟩ := r
      exact Running.actAfterAdvance (running.advance top)
  | suspend => exact ⟨aligned, waiting⟩
  | throw e => exact calm (by simp [control])
  | «break» => exact (calm (by simp [control])).leaveLoop.actAfterSignal
  | tailCall target => exact ((calm (by simp [control])).replaceCall target).actAfterSignal

end

theorem Moment.Next.sound {x y : Moment} (next : x.Next y) (sound : x.Sound) : y.Sound := by
  cases next with
  | act m => exact sound.1.act sound.2
  | handed e m =>
    have kept := Aligned.raiseError sound.aligned sound.pending e
    exact ⟨kept.aligned, kept.waiting⟩
  | answered reply asleep => exact ⟨sound.1.answer reply, .inr (Machine.pending_answer _ reply)⟩

theorem Moment.Reaches.sound {x y : Moment} (reaches : x.Reaches y) (sound : x.Sound) :
    y.Sound := by
  induction reaches with
  | refl => exact sound
  | tail _ next ih => exact next.sound ih

/-! ### How frames come and go -/

section

variable {m : Machine}

/-- What happens to the machine after the frames have been dealt with is of no account. -/
theorem Machine.Reframed.signalled {gone new rest : List Frame} {m' : Machine}
    (reframed : m.Reframed gone new rest m') (signal : Signal) :
    m.Reframed gone new rest (Moment.ofAct (m'.signalled signal)).machine := by
  cases signal <;> exact reframed.congr rfl rfl rfl rfl rfl rfl rfl rfl

theorem Exec.Reframes.actAfterAdvance {most : List Frame} {x : EStateM.Result Signal Machine Tick}
    (reframes : Exec.Reframes most m x) :
    ∃ gone new rest, gone <+: most ∧ m.Reframed gone new rest
      (Moment.ofAct (Machine.actAfterAdvance x)).machine := by
  obtain ⟨gone, new, rest, top, reframed⟩ := reframes
  refine ⟨gone, new, rest, top, ?_⟩
  cases x with
  | error signal m' => exact reframed.signalled signal
  | ok tick m' => cases tick <;> exact reframed.congr rfl rfl rfl rfl rfl rfl rfl rfl

theorem Exec.Reframes.actAfterSignal {most : List Frame} {x : EStateM.Result Signal Machine Unit}
    (reframes : Exec.Reframes most { m with control := .none } x) :
    ∃ gone new rest, m.Reframed gone new rest
      (Moment.ofAct (Machine.actAfterSignal x)).machine := by
  obtain ⟨gone, new, rest, _, reframed⟩ := reframes
  have reframed := reframed.congr (m := m) rfl rfl rfl rfl rfl rfl rfl rfl
  refine ⟨gone, new, rest, ?_⟩
  cases x with
  | error signal m' => exact reframed.signalled signal
  | ok _ m' => exact reframed

theorem Aligned.act_reframed (aligned : Aligned m) :
    ∃ gone new rest, m.Reframed gone new rest (Moment.ofAct m.act).machine := by
  have calm : Aligned { m with control := .none } :=
    ⟨aligned.floors, aligned.layered, aligned.covered, aligned.saved⟩
  have same : m.Reframed [] [] m.frames.toList m := .same rfl rfl id
  rw [Machine.act]
  cases m.control with
  | none =>
    simp only
    cases top : m.frames.pop? with
    | none =>
      simp only
      split <;> exact ⟨_, _, _, same⟩
    | some r =>
      obtain ⟨frame, below⟩ := r
      obtain ⟨gone, new, rest, _, reframed⟩ :=
        (Exec.reframes_advance (Stack.pop?_eq_some_iff.1 top)).actAfterAdvance
      exact ⟨gone, new, rest, reframed⟩
  | suspend => exact ⟨_, _, _, same⟩
  | throw e => exact ⟨_, _, _, same.congr rfl rfl rfl rfl rfl rfl rfl rfl⟩
  | «break» => exact (Exec.reframes_leaveLoop calm).actAfterSignal
  | tailCall target => exact (Exec.reframes_replaceCall calm target).actAfterSignal

end

namespace Moment

variable {x y : Moment}

/-- What one moment does to the frames. -/
theorem Next.reframed (next : x.Next y) (sound : x.Sound) :
    ∃ gone new rest, x.machine.Reframed gone new rest y.machine := by
  cases next with
  | act m => exact sound.1.act_reframed
  | handed e m =>
    obtain ⟨gone, rest, reframed⟩ := Machine.reframed_raiseError (Running.aligned sound) e
    exact ⟨gone, [], rest, reframed⟩
  | @answered m reply _ =>
    refine ⟨[], [], _, .same ?_ ?_ ?_⟩ <;> cases reply <;> first | rfl | exact id

theorem Reaches.rooted (reaches : x.Reaches y) (sound : x.Sound) (rooted : x.machine.Rooted) :
    y.machine.Rooted := by
  induction reaches with
  | refl => exact rooted
  | tail before next ih =>
    obtain ⟨_, _, _, reframed⟩ := next.reframed (Reaches.sound before sound)
    exact reframed.rooted ih

end Moment

/-! ### Moments of a step -/

/-- The machines that a step comes to before its last act. -/
inductive Machine.Within : Machine → Machine → Prop
  | here (m : Machine) : Within m m
  | next {m m₁ m₂ : Machine} : m.act = .goes none m₁ → Within m₁ m₂ → Within m m₂

section

variable {m m₁ m' : Machine} {s : Step}

theorem Machine.pass_of_goes (goes : m.act = .goes none m₁) : m.pass = (none, m₁) := by
  rw [← act_result, goes]
  rfl

theorem Machine.goes_of_pass (passed : m.pass = (none, m₁)) : m.act = .goes none m₁ := by
  rw [← act_result] at passed
  cases acted : m.act with
  | goes said m' =>
    rw [acted] at passed
    cases passed
    rfl
  | throws e m' =>
    rw [acted] at passed
    cases passed

theorem Aligned.goes (aligned : Aligned m) (waiting : m.control = .suspend ∨ m.pending = none)
    (goes : m.act = .goes none m₁) : Running m₁ := by
  have passed := aligned.pass waiting
  rw [Machine.pass_of_goes goes] at passed
  exact passed

theorem Running.proceed_eq (running : Running m) (within : m.Within m₁)
    (last : m₁.act.result = (some s, m')) : m.proceed = (s, m') := by
  induction within with
  | here m =>
    rw [Machine.act_result, Machine.pass_of_calm running.control] at last
    rw [Machine.proceed_eq_turn, last, Machine.continueWith]
  | next goes _ ih =>
    have turned := Machine.pass_of_goes goes
    rw [Machine.pass_of_calm running.control] at turned
    rw [Machine.proceed_eq_turn, turned, Machine.continueWith]
    exact ih (running.aligned.goes (.inr running.pending) goes) last

/-- The last act of a step says what the step comes to. -/
theorem Aligned.step_eq (aligned : Aligned m) (waiting : m.control = .suspend ∨ m.pending = none)
    (within : m.Within m₁) (last : m₁.act.result = (some s, m')) : m.step = (s, m') := by
  by_cases calm : m.control = .none
  · have running : Running m := ⟨aligned, calm, waiting.resolve_left (by simp [calm])⟩
    rw [Machine.step, calm]
    exact running.proceed_eq within last
  · have heeds := Machine.pass_of_control calm
    rw [Machine.step_eq_heed, ← heeds]
    cases within with
    | here => rw [← Machine.act_result, last, Machine.continueWith]
    | next goes rest =>
      rw [Machine.pass_of_goes goes, Machine.continueWith]
      exact (aligned.goes waiting goes).proceed_eq rest last

theorem Running.exists_last (running : Running m) :
    ∃ m₁, m.Within m₁ ∧ m₁.act.result = (some m.proceed.1, m.proceed.2) := by
  have proceeds := m.proceeds_proceed
  generalize m.proceed.1 = s at proceeds ⊢
  generalize m.proceed.2 = m' at proceeds ⊢
  induction proceeds with
  | @last m s m' turned _ =>
    refine ⟨m, .here m, ?_⟩
    rw [Machine.act_result, Machine.pass_of_calm running.control, turned]
  | @more m m₁ s m' turned _ _ ih =>
    have goes := running.turn
    rw [turned] at goes
    obtain ⟨m₂, within, last⟩ := ih goes
    have passed := (Machine.pass_of_calm running.control).trans turned
    exact ⟨m₂, .next (Machine.goes_of_pass passed) within, last⟩

/-- Every step has a last act. -/
theorem Aligned.exists_last (aligned : Aligned m)
    (waiting : m.control = .suspend ∨ m.pending = none) :
    ∃ m₁, m.Within m₁ ∧ m₁.act.result = (some m.step.1, m.step.2) := by
  by_cases calm : m.control = .none
  · have running : Running m := ⟨aligned, calm, waiting.resolve_left (by simp [calm])⟩
    have step : m.step = m.proceed := by rw [Machine.step, calm]
    rw [step]
    exact running.exists_last
  · have heeds := Machine.pass_of_control calm
    have goes := aligned.heed waiting
    rw [Machine.step_eq_heed]
    cases heeded : m.heed with
    | mk said m₁ =>
      rw [heeded] at goes
      cases said with
      | some s => exact ⟨m, .here m, by rw [Machine.act_result, heeds, heeded]; rfl⟩
      | none =>
        obtain ⟨m₂, within, last⟩ := Running.exists_last goes
        exact ⟨m₂, .next (Machine.goes_of_pass (heeds.trans heeded)) within, last⟩

theorem Machine.Within.reaches (within : m.Within m₁) :
    Moment.Reaches (.running m) (.running m₁) := by
  induction within with
  | here m => exact .refl
  | @next m m₁ m₂ goes _ ih =>
    have next := Moment.Next.act m
    rw [goes] at next
    exact .head next ih

/-- The last act leads to what the step comes to, over an error if it throws one. -/
theorem Moment.reaches_of_last (last : m.act.result = (some s, m')) :
    Moment.Reaches (.running m) (.running m') := by
  have next := Moment.Next.act m
  cases acted : m.act with
  | goes said m₁ =>
    rw [acted] at last next
    cases last
    exact .single next
  | throws e m₁ =>
    rw [acted] at last next
    cases last
    exact .tail (.single next) (.handed e m₁)

/-- What a step of a run comes to is what its last act comes to. -/
theorem Machine.Course.step_eq {m₂ : Machine} (course : m.Course m₁)
    (start : (Moment.running m).Sound) (within : m₁.Within m₂)
    (last : m₂.act.result = (some s, m')) : m₁.step = (s, m') := by
  obtain ⟨aligned, waiting⟩ := course.sound start
  exact aligned.step_eq waiting within last

/-- The states of a run are moments of it. -/
theorem Machine.Course.reaches (course : m.Course m') (start : (Moment.running m).Sound) :
    Moment.Reaches (.running m) (.running m') := by
  have stepped {m₁ m₂ : Machine} {s : Step} (before : m.Course m₁) (step : m₁.step = (s, m₂)) :
      Moment.Reaches (.running m₁) (.running m₂) := by
    obtain ⟨aligned, waiting⟩ := before.sound start
    obtain ⟨m₃, within, last⟩ := aligned.exists_last waiting
    rw [step] at last
    exact within.reaches.trans (Moment.reaches_of_last last)
  induction course with
  | start => exact .refl
  | step before step _ ih => exact ih.trans (stepped before step)
  | @answer m₁ m₂ reply before step ih =>
    have asleep : m₂.control = .suspend := by
      obtain ⟨aligned, waiting⟩ := before.sound start
      obtain ⟨asleep, rfl⟩ := aligned.of_suspended waiting step
      exact asleep
    exact .tail (ih.trans (stepped before step)) (.answered reply asleep)

end

end Catena
