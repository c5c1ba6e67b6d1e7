import Catena.Run
import Catena.Proofs.Balance
import Mathlib.Logic.Relation

set_option autoImplicit false

/-!
How runs settle. The steps of a run and the waiting between them are broken into moves, of which a
machine has at most one; a run settles when a move ends it. Two machines that keep going in
parallel, each by one move or more, settle together or not at all.
-/

namespace Catena

def Step.outcome? : Step → Option Outcome
  | .done => some .completed
  | .failed e => some (.failed e)
  | _ => none

namespace Machine

/-- One part of a step: what the step before has left, or a turn. -/
def pass (m : Machine) : Option Step × Machine :=
  match m.control with
  | .none => m.turn
  | _ => m.heed

/-- A machine goes on; its host waits for every operation. -/
inductive Moves : Machine → Machine → Prop
  | pass {m s m'} : m.control ≠ .suspend → m.pass = (s, m') → s.bind Step.outcome? = none →
      Moves m m'
  | answer {m pending reply time} : m.control = .suspend → m.pending = some pending →
      Patience.unlimited.wait pending.future = .reply reply time → Moves m (m.answer reply)
  | resume {m} : m.control = .suspend → m.pending = none → Moves m (m.resume none)

/-- The next part of a step ends the run. -/
inductive Ends : Machine → Outcome → Machine → Prop
  | intro {m s o m'} : m.control ≠ .suspend → m.pass = (some s, m') → s.outcome? = some o →
      Ends m o m'

/-- A run settles after a number of moves. -/
inductive SettlesIn : Nat → Machine → Outcome → Machine → Prop
  | last {m o m'} : Ends m o m' → SettlesIn 0 m o m'
  | more {k m m₁ o m'} : Moves m m₁ → SettlesIn k m₁ o m' → SettlesIn (k + 1) m o m'

abbrev Reaches : Machine → Machine → Prop := Relation.ReflTransGen Moves

/-- On its way the machine is refused a frame. -/
def MeetsLimit (m : Machine) : Prop := ∃ m', m.Reaches m' ∧ m'.control = .none ∧ m'.Refuses

variable {m m₁ m₂ m' m'' : Machine} {o o' : Outcome} {j k : Nat}

theorem pass_of_calm (calm : m.control = .none) : m.pass = m.turn := by
  rw [pass, calm]

theorem pass_of_control (control : m.control ≠ .none) : m.pass = m.heed := by
  unfold pass
  split
  · contradiction
  · rfl

theorem pass_of_throw {e : LocatedError} (control : m.control = .throw e) :
    m.pass = ending (raiseError { m with control := .none } e) := by
  simp only [pass, heed, control]

theorem pass_of_break (control : m.control = .break) :
    m.pass = afterSignal (Exec.leaveLoop { m with control := .none }) := by
  simp only [pass, heed, control]

theorem pass_of_tailCall {target : Closure Value} (control : m.control = .tailCall target) :
    m.pass = afterSignal (Exec.replaceCall target { m with control := .none }) := by
  simp only [pass, heed, control]

/-! ### At most one way -/

theorem Moves.unique (moves : Moves m m₁) (moves' : Moves m m₂) : m₂ = m₁ := by
  cases moves with
  | pass awake passed _ =>
    cases moves' with
    | pass _ passed' _ =>
      rw [passed] at passed'
      cases passed'
      rfl
    | answer asleep => contradiction
    | resume asleep => contradiction
  | answer asleep pending waited =>
    cases moves' with
    | pass awake => contradiction
    | answer _ pending' waited' =>
      rw [pending] at pending'
      cases pending'
      rw [waited] at waited'
      cases waited'
      rfl
    | resume _ free =>
      rw [pending] at free
      cases free
  | resume asleep free =>
    cases moves' with
    | pass awake => contradiction
    | answer _ pending =>
      rw [pending] at free
      cases free
    | resume => rfl

theorem Ends.unique (ends : Ends m o m₁) (ends' : Ends m o' m₂) : o' = o ∧ m₂ = m₁ := by
  obtain ⟨_, passed, final⟩ := ends
  obtain ⟨_, passed', final'⟩ := ends'
  rw [passed] at passed'
  cases passed'
  rw [final] at final'
  cases final'
  exact ⟨rfl, rfl⟩

theorem Moves.not_ends (moves : Moves m m₁) : ¬ Ends m o m₂ := by
  rintro ⟨awake, passed, final⟩
  cases moves with
  | pass _ passed' other =>
    rw [passed] at passed'
    cases passed'
    rw [Option.bind_some, final] at other
    cases other
  | answer asleep => contradiction
  | resume asleep => contradiction

theorem SettlesIn.unique (settles : SettlesIn j m o m') (settles' : SettlesIn k m o' m'') :
    o' = o ∧ m'' = m' := by
  induction settles generalizing k with
  | last ends =>
    cases settles' with
    | last ends' => exact ends.unique ends'
    | more moves _ => exact absurd ends moves.not_ends
  | more moves _ ih =>
    cases settles' with
    | last ends' => exact absurd ends' moves.not_ends
    | more moves' rest =>
      obtain rfl := moves.unique moves'
      exact ih rest

/-- What lies on the way to the end is nearer to it. -/
theorem SettlesIn.after (settles : SettlesIn k m o m') (moves : Relation.TransGen Moves m m₁) :
    ∃ j < k, SettlesIn j m₁ o m' := by
  have next {k : Nat} {m m₁ : Machine} (settles : SettlesIn k m o m') (moves : Moves m m₁) :
      ∃ j < k, SettlesIn j m₁ o m' := by
    cases settles with
    | last ends => exact absurd ends moves.not_ends
    | more moves' rest =>
      obtain rfl := moves.unique moves'
      exact ⟨_, Nat.lt_succ_self _, rest⟩
  induction moves with
  | single moves => exact next settles moves
  | tail _ moves ih =>
    obtain ⟨j, lt, rest⟩ := ih
    obtain ⟨i, lt', rest⟩ := next rest moves
    exact ⟨i, Nat.lt_trans lt' lt, rest⟩

theorem SettlesIn.before (settles : SettlesIn k m₁ o m') (reaches : m.Reaches m₁) :
    ∃ j, SettlesIn j m o m' := by
  induction reaches using Relation.ReflTransGen.head_induction_on with
  | refl => exact ⟨k, settles⟩
  | head moves _ ih =>
    obtain ⟨j, rest⟩ := ih
    exact ⟨j + 1, .more moves rest⟩

/-- A machine that waits for an operation that never answers does not go on. -/
theorem not_settlesIn {a : Pending Value} (asleep : m.control = .suspend)
    (pending : m.pending = some a) (never : Patience.unlimited.wait a.future = .gaveUp) (k : Nat)
    (o : Outcome) (m' : Machine) : ¬ SettlesIn k m o m' := by
  intro settles
  cases settles with
  | last ends =>
    cases ends with
    | intro awake => exact awake asleep
  | more moves _ =>
    cases moves with
    | pass awake => exact awake asleep
    | answer _ pending' replied =>
      rw [pending] at pending'
      cases pending'
      rw [never] at replied
      cases replied
    | resume _ free =>
      rw [pending] at free
      cases free

theorem MeetsLimit.before (meets : m₁.MeetsLimit) (reaches : m.Reaches m₁) : m.MeetsLimit := by
  obtain ⟨m', reaches', refuses⟩ := meets
  exact ⟨m', reaches.trans reaches', refuses⟩

theorem not_refuses {frame : Frame} {below : Stack Frame} {tick : Tick}
    (top : m.frames.pop? = some (frame, below))
    (advanced : Exec.advance frame below m = .ok tick m') :
    ¬ m.Refuses := by
  rintro ⟨_, _, top', _, refused, _⟩
  rw [top] at top'
  cases top'
  rw [advanced] at refused
  cases refused

/-- A machine that is not refused a frame now meets the limit later. -/
theorem MeetsLimit.after (meets : m.MeetsLimit) (moves : Moves m m₁) (fits : ¬ m.Refuses) :
    m₁.MeetsLimit := by
  obtain ⟨m', reaches, calm, refuses⟩ := meets
  rcases reaches.cases_head with rfl | ⟨m₂, moves', reaches⟩
  · exact absurd refuses fits
  · obtain rfl := moves.unique moves'
    exact ⟨m', reaches, calm, refuses⟩

theorem MeetsLimit.turn {frame : Frame} {below : Stack Frame} {tick : Tick} (meets : m.MeetsLimit)
    (calm : m.control = .none) (goesOn : m.turn.1.bind Step.outcome? = none)
    (top : m.frames.pop? = some (frame, below))
    (advanced : Exec.advance frame below m = .ok tick m') :
    m.turn.2.MeetsLimit := by
  have awake : m.control ≠ .suspend := by simp [calm]
  exact meets.after (.pass awake (pass_of_calm calm) goesOn) (not_refuses top advanced)

/-- A machine that ends its run for want of frames is not refused any. -/
theorem not_meetsLimit (calm : m.control = .none) (empty : m.frames.pop? = none)
    (ended : (m.turn.1.bind Step.outcome?).isSome = true) : ¬ m.MeetsLimit := by
  intro meets
  have fits : ¬ m.Refuses := by
    rintro ⟨_, _, top, _⟩
    rw [empty] at top
    cases top
  obtain ⟨m₁, reaches, _, refuses⟩ := meets
  rcases reaches.cases_head with rfl | ⟨m₂, moves, _⟩
  · exact fits refuses
  · cases moves with
    | pass _ passed goesOn =>
      rw [pass_of_calm calm] at passed
      rw [passed, goesOn] at ended
      cases ended
    | answer asleep => exact absurd (calm.symm.trans asleep) nofun
    | resume asleep => exact absurd (calm.symm.trans asleep) nofun

end Machine

/-! ### Two machines -/

/-- Two machines go on in parallel, end in parallel, or both wait forever. -/
inductive Tandem (R : Machine → Machine → Prop) (E : Outcome × Machine → Outcome × Machine → Prop)
    (m n : Machine) : Prop
  | both {m' n'} : Relation.TransGen Machine.Moves m m' → Relation.TransGen Machine.Moves n n' →
      R m' n' → Tandem R E m n
  | ends {j k o o' m' n'} : m.SettlesIn j o m' → n.SettlesIn k o' n' → E (o, m') (o', n') →
      Tandem R E m n
  | stuck : (∀ k o m', ¬ m.SettlesIn k o m') → (∀ k o n', ¬ n.SettlesIn k o n') → Tandem R E m n

/-- The same, unless one of the machines is refused a frame. -/
inductive Lockstep (R : Machine → Machine → Prop) (E : Outcome × Machine → Outcome × Machine → Prop)
    (m n : Machine) : Prop
  | both {m' n'} : Relation.TransGen Machine.Moves m m' → Relation.TransGen Machine.Moves n n' →
      R m' n' → Lockstep R E m n
  | ends {j k o o' m' n'} : m.SettlesIn j o m' → n.SettlesIn k o' n' → E (o, m') (o', n') →
      Lockstep R E m n
  | stuck : (∀ k o m', ¬ m.SettlesIn k o m') → (∀ k o n', ¬ n.SettlesIn k o n') → Lockstep R E m n
  | limit : m.MeetsLimit ∨ n.MeetsLimit → Lockstep R E m n

section

variable {R : Machine → Machine → Prop} {E : Outcome × Machine → Outcome × Machine → Prop}
  {m n m' : Machine} {o : Outcome} {k : Nat}

theorem Tandem.symm (step : Tandem R E m n) : Tandem (flip R) (flip E) n m := by
  cases step with
  | both left right related => exact .both right left related
  | ends left right same => exact .ends right left same
  | stuck left right => exact .stuck right left

theorem Lockstep.symm (step : Lockstep R E m n) : Lockstep (flip R) (flip E) n m := by
  cases step with
  | both left right related => exact .both right left related
  | ends left right same => exact .ends right left same
  | stuck left right => exact .stuck right left
  | limit meets => exact .limit meets.symm

/-- If the first machine settles, the second does, and they end as `E` says. -/
def SettlesAs (E : Outcome × Machine → Outcome × Machine → Prop) (m n : Machine) : Prop :=
  ∀ k o m', m.SettlesIn k o m' → ∃ j o' n', n.SettlesIn j o' n' ∧ E (o, m') (o', n')

/-- By induction on the moves that the first machine makes. -/
theorem Machine.SettlesIn.tandem (step : ∀ m n, R m n → Tandem R E m n)
    (settles : m.SettlesIn k o m') (related : R m n) :
    ∃ j o' n', n.SettlesIn j o' n' ∧ E (o, m') (o', n') := by
  induction k using Nat.strongRecOn generalizing m n with
  | ind k ih =>
    cases step m n related with
    | both left right related' =>
      obtain ⟨j, lt, settles'⟩ := settles.after left
      obtain ⟨i, o', n', rest, ended⟩ := ih j lt settles' related'
      obtain ⟨i', whole⟩ := rest.before right.to_reflTransGen
      exact ⟨i', o', n', whole, ended⟩
    | ends left right ended =>
      obtain ⟨rfl, rfl⟩ := left.unique settles
      exact ⟨_, _, _, right, ended⟩
    | stuck left _ => exact absurd settles (left _ _ _)

theorem Machine.SettlesIn.lockstep (step : ∀ m n, R m n → Lockstep R E m n)
    (settles : m.SettlesIn k o m') (related : R m n) (free : ¬ m.MeetsLimit)
    (free' : ¬ n.MeetsLimit) : ∃ j o' n', n.SettlesIn j o' n' ∧ E (o, m') (o', n') := by
  -- Machines that are not refused a frame now or later are related to such machines only.
  let R' (m n : Machine) : Prop := R m n ∧ ¬ m.MeetsLimit ∧ ¬ n.MeetsLimit
  have step' (m n : Machine) (related : R' m n) : Tandem R' E m n := by
    obtain ⟨related, free, free'⟩ := related
    cases step m n related with
    | both left right related' =>
      exact .both left right ⟨related', fun meets => free (meets.before left.to_reflTransGen),
        fun meets => free' (meets.before right.to_reflTransGen)⟩
    | ends left right ended => exact .ends left right ended
    | stuck left right => exact .stuck left right
    | limit meets => exact absurd meets (not_or.2 ⟨free, free'⟩)
  exact settles.tandem step' ⟨related, free, free'⟩

end

/-! ### Steps in moves -/

namespace Machine

theorem turn_ne_suspended (m : Machine) : m.turn.1 ≠ some .suspended := by
  rcases m.passing_turn with passing | ⟨_, _, done⟩
  · exact passing.2
  · simp [done]

theorem heed_ne_suspended {m : Machine} (awake : m.control ≠ .suspend) :
    m.heed.1 ≠ some .suspended := by
  rcases m.passing_heed with passing | ⟨asleep, _⟩
  · exact passing.2
  · contradiction

/-- A step consists of moves, the last of which may end the run. -/
def Comes (m : Machine) (s : Step) (m' : Machine) : Prop :=
  match s.outcome? with
  | some o => ∃ k, m.SettlesIn k o m'
  | none => Relation.TransGen Moves m m'

variable {m m₁ m' : Machine} {s : Step}

theorem Comes.before (comes : m₁.Comes s m') (moves : Moves m m₁) : m.Comes s m' := by
  rw [Comes] at comes ⊢
  generalize s.outcome? = x at comes ⊢
  cases x with
  | some o =>
    obtain ⟨k, settles⟩ := comes
    exact ⟨k + 1, .more moves settles⟩
  | none => exact .head moves comes

theorem comes_of_pass (awake : m.control ≠ .suspend) (passed : m.pass = (some s, m')) :
    m.Comes s m' := by
  rw [Comes]
  cases final : s.outcome? with
  | some o => exact ⟨0, .last ⟨awake, passed, final⟩⟩
  | none => exact .single (.pass awake passed final)

end Machine

variable {m m' : Machine} {s : Step}

theorem Running.comes {R : Machine → Machine → Prop} (running : Running m)
    (proceeds : m.Proceeds R s m') : m.Comes s m' ∧ s ≠ .suspended := by
  induction proceeds with
  | @last m s m' turned _ =>
    have passed := (Machine.pass_of_calm running.control).trans turned
    refine ⟨Machine.comes_of_pass (by simp [running.control]) passed, fun suspended => ?_⟩
    have other := m.turn_ne_suspended
    rw [turned, suspended] at other
    exact other rfl
  | more turned _ _ ih =>
    have goes := running.turn
    rw [turned] at goes
    have passed := (Machine.pass_of_calm running.control).trans turned
    obtain ⟨comes, other⟩ := ih goes
    exact ⟨comes.before (.pass (by simp [running.control]) passed rfl), other⟩

theorem Aligned.pass {m : Machine} (aligned : Aligned m)
    (waiting : m.control = .suspend ∨ m.pending = none) : Goes m.pass := by
  have goes := aligned.heed waiting
  by_cases calm : m.control = .none
  · have heeded : m.heed = (none, m) := by rw [Machine.heed, calm]
    rw [heeded] at goes
    rw [Machine.pass_of_calm calm]
    exact Running.turn goes
  · rw [Machine.pass_of_control calm]
    exact goes

theorem Goes.aligned {s : Option Step} {m : Machine} (goes : Goes (s, m)) :
    Aligned m ∧ (m.control = .suspend ∨ m.pending = none) := by
  cases s with
  | none => exact ⟨Running.aligned goes, .inr (Running.pending goes)⟩
  | some s => exact ⟨Kept.aligned goes, Kept.waiting goes⟩

theorem Aligned.comes (aligned : Aligned m) (awake : m.control ≠ .suspend)
    (pending : m.pending = none) : m.Comes m.step.1 m.step.2 ∧ m.step.1 ≠ .suspended := by
  have goes := aligned.heed (.inr pending)
  have other := Machine.heed_ne_suspended awake
  rw [Machine.step_eq_heed]
  by_cases calm : m.control = .none
  · have heeded : m.heed = (none, m) := by rw [Machine.heed, calm]
    rw [heeded] at goes ⊢
    exact Running.comes goes m.proceeds_proceed
  · have passed := Machine.pass_of_control calm
    generalize m.heed = x at goes other passed
    obtain ⟨s | s, m₁⟩ := x
    · obtain ⟨comes, other⟩ := Running.comes goes m₁.proceeds_proceed
      exact ⟨comes.before (.pass awake passed rfl), other⟩
    · exact ⟨Machine.comes_of_pass awake passed, fun suspended => other (congrArg some suspended)⟩

/-- A machine that waits did so before. -/
theorem Aligned.of_suspended (aligned : Aligned m)
    (waiting : m.control = .suspend ∨ m.pending = none) (stepped : m.step = (.suspended, m')) :
    m.control = .suspend ∧ m' = m := by
  by_cases asleep : m.control = .suspend
  · rw [Machine.step, asleep] at stepped
    exact ⟨asleep, (congrArg Prod.snd stepped).symm⟩
  · obtain ⟨_, awake⟩ := aligned.comes asleep (waiting.resolve_left asleep)
    rw [stepped] at awake
    exact absurd rfl awake

/-! ### Runs of a patient host -/

theorem Future.unlimited_wait_ne (f : Future Value) : Patience.unlimited.wait f ≠ .cancelled := by
  cases f with
  | ready reply => exact nofun
  | later milliseconds reply => cases milliseconds <;> exact nofun
  | never => exact nofun

/-- Operations of two machines answer alike, or never. -/
theorem Future.Same.wait {p : Nat → Nat → Prop} {f g : Future Value} (same : f.Same p g) :
    (∃ reply reply' time, Patience.unlimited.wait f = .reply reply time ∧
      Patience.unlimited.wait g = .reply reply' time ∧ reply.Same p reply') ∨
    (Patience.unlimited.wait f = .gaveUp ∧ Patience.unlimited.wait g = .gaveUp) := by
  cases same with
  | ready replies => exact .inl ⟨_, _, 0, rfl, rfl, replies⟩
  | @later milliseconds reply reply' replies =>
    refine .inl ⟨reply, reply', milliseconds, ?_, ?_, replies⟩ <;> cases milliseconds <;> rfl
  | never => exact .inr ⟨rfl, rfl⟩

namespace Run

/-- A run that is neither settled nor cancelled. -/
structure Open (r : Run) : Prop where
  outcome : r.outcome = none
  cancelled : r.cancelled = false
  aligned : Aligned r.machine
  waiting : r.machine.control = .suspend ∨ r.machine.pending = none

/-- What a step of a run does to its machine. -/
inductive Steps (r : Run) : Progress × Run → Prop
  | on {progress r'} : progress = .checkpoint ∨ progress = .resumed →
      Relation.TransGen Machine.Moves r.machine r'.machine → r'.Open → Steps r (progress, r')
  | settled {k o r'} : r.machine.SettlesIn k o r'.machine → Steps r (.settled o, r')
  | stuck {r'} : (∀ k o m', ¬ r.machine.SettlesIn k o m') → Steps r (.stuck, r')

variable {r r' : Run} {o : Outcome}

theorem Open.awaitPending (opened : r.Open) (asleep : r.machine.control = .suspend) :
    r.Steps (r.awaitPending .unlimited) := by
  rw [Run.awaitPending]
  cases pending : r.machine.pending with
  | none =>
    obtain ⟨floors, layered, covered, saved⟩ := opened.aligned
    exact .on (.inr rfl) (.single (.resume asleep pending))
      ⟨opened.outcome, opened.cancelled, ⟨floors, layered, covered, saved⟩, .inr pending⟩
  | some a =>
    simp only [await]
    cases waited : Patience.unlimited.wait a.future with
    | cancelled => exact absurd waited a.future.unlimited_wait_ne
    | gaveUp => exact .stuck (Machine.not_settlesIn asleep pending waited)
    | reply reply time =>
      have moves := Machine.Moves.answer asleep pending waited
      have machine : (Run.answer { r with
          machine := { r.machine with pending := none }
          waited := r.waited + time } reply).2.machine = r.machine.answer reply := by
        cases reply <;> rfl
      refine .on (.inr rfl) ?_ ⟨opened.outcome, opened.cancelled, ?_, ?_⟩
      · exact machine ▸ .single moves
      · exact machine ▸ opened.aligned.answer reply
      · exact .inr ((congrArg Machine.pending machine).trans (r.machine.pending_answer reply))

theorem Open.step (opened : r.Open) : r.Steps (r.step .unlimited) := by
  obtain ⟨m, cancelled, outcome, interrupted, told, waited⟩ := r
  obtain ⟨outcome_eq, cancelled_eq, aligned, waiting⟩ := id opened
  dsimp only at outcome_eq cancelled_eq aligned waiting
  subst outcome_eq cancelled_eq
  simp only [Run.step, Bool.false_eq_true, if_false]
  by_cases waits : m.pending.isSome = true
  · rw [if_pos waits]
    refine opened.awaitPending (waiting.resolve_right fun free => ?_)
    rw [free] at waits
    cases waits
  · rw [if_neg waits]
    have pending : m.pending = none := by simpa using waits
    by_cases asleep : m.control = .suspend
    · have stepped : m.step = (.suspended, m) := by rw [Machine.step, asleep]
      rw [stepped]
      exact opened.awaitPending asleep
    · have kept := aligned.step (.inr pending)
      obtain ⟨comes, other⟩ := aligned.comes asleep pending
      generalize m.step = x at kept comes other
      obtain ⟨s, m'⟩ := x
      cases s with
      | checkpoint => exact .on (.inl rfl) comes ⟨rfl, rfl, kept.aligned, kept.waiting⟩
      | suspended => exact absurd rfl other
      | done =>
        obtain ⟨k, settles⟩ := comes
        exact .settled settles
      | failed e =>
        obtain ⟨k, settles⟩ := comes
        exact .settled settles

theorem finishFrom_on {progress : Progress} (limit made : Nat)
    (other : progress = .checkpoint ∨ progress = .resumed)
    (stepped : r.step .unlimited = (progress, r')) :
    finishFrom .unlimited (limit + 1) made r = finishFrom .unlimited limit (made + 1) r' := by
  rw [finishFrom, stepped]
  rcases other with rfl | rfl <;> simp [Patience.after]

theorem settlesIn_of_finishFrom {limit made : Nat} (opened : r.Open)
    (finished : finishFrom .unlimited limit made r = (some o, r')) :
    ∃ k, r.machine.SettlesIn k o r'.machine := by
  induction limit generalizing made r with
  | zero => cases finished
  | succ limit ih =>
    have steps := opened.step
    generalize stepped : r.step .unlimited = x at steps
    cases steps with
    | @on progress r₁ other moves opened' =>
      rw [finishFrom_on limit made other stepped] at finished
      obtain ⟨k, rest⟩ := ih opened' finished
      exact rest.before moves.to_reflTransGen
    | @settled k o r₁ settles =>
      rw [finishFrom, stepped] at finished
      cases finished
      exact ⟨k, settles⟩
    | stuck =>
      rw [finishFrom, stepped] at finished
      cases finished

theorem finishFrom_of_settlesIn {k : Nat} {m' : Machine} (made : Nat) (opened : r.Open)
    (settles : r.machine.SettlesIn k o m') :
    ∃ limit r', finishFrom .unlimited limit made r = (some o, r') ∧ r'.machine = m' := by
  induction k using Nat.strongRecOn generalizing made r with
  | ind k ih =>
    have steps := opened.step
    generalize stepped : r.step .unlimited = x at steps
    cases steps with
    | @on progress r₁ other moves opened' =>
      obtain ⟨j, lt, rest⟩ := settles.after moves
      obtain ⟨limit, r', finished, machine⟩ := ih j lt (made + 1) opened' rest
      exact ⟨limit + 1, r', (finishFrom_on limit made other stepped).trans finished, machine⟩
    | @settled j o' r₁ settles' =>
      obtain ⟨rfl, machine⟩ := settles.unique settles'
      refine ⟨1, r₁, ?_, machine⟩
      rw [finishFrom, stepped]
    | stuck never => exact absurd settles (never _ _ _)

end Run

theorem Machine.Idle.opened {m : Machine} (idle : m.Idle) (tokens : List Token) :
    (Run.start m tokens).Open := by
  obtain ⟨aligned, waiting⟩ := (Machine.Loaded.program tokens).sound idle
  exact ⟨rfl, rfl, aligned, waiting⟩

theorem SettlesAs.finish {E : Outcome × Machine → Outcome × Machine → Prop} {r r' s : Run}
    {limit : Nat} {o : Outcome} (settles : SettlesAs E r.machine s.machine) (opened : r.Open)
    (opened' : s.Open) (finished : r.finish .unlimited limit = (some o, r')) :
    ∃ limit' o' s', s.finish .unlimited limit' = (some o', s') ∧
      E (o, r'.machine) (o', s'.machine) := by
  obtain ⟨k, settled⟩ := Run.settlesIn_of_finishFrom opened finished
  obtain ⟨j, o', n', settled', ended⟩ := settles k o r'.machine settled
  obtain ⟨limit', s', finished', rfl⟩ := Run.finishFrom_of_settlesIn 0 opened' settled'
  exact ⟨limit', o', s', finished', ended⟩

end Catena
