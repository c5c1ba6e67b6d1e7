import Catena.Proofs.Release
import Catena.Proofs.Settling

set_option autoImplicit false

/-!
Runs that are cancelled. A host makes the steps of a run in its own time, waits for operations as
long as it likes, gives up waiting and goes on, and cancels the run at any moment. Whatever it does,
a run is settled once, and a run that was cancelled leaves the machine without work and with the
operands it had.
-/

namespace Catena

/-! ### What a host does -/

/-- A run at its beginning. -/
inductive Run.Begins (m : Machine) : Run → Prop
  | program (tokens : List Token) : Begins m (.start m tokens)
  | value (v : Value) : Begins m (.startValue m v)

/-- The runs that come from a run by what its host does. -/
inductive Run.Driven (r : Run) : Run → Prop
  | start : Driven r r
  | step {s} (patience : Patience) : Driven r s → Driven r (s.step patience).2
  | cancel {s} : Driven r s → Driven r s.cancel

/-! ### Dropping the work of a machine -/

/-- All work of a machine has been dropped, and nothing else has happened to it: it is back in its
outermost scope. -/
structure Machine.Dropped (m m' : Machine) : Prop where
  idle : m'.Idle
  control : m'.control = .none
  operands : m'.operands.toList = m.operands.toList
  scope : m.scopes.toList.getLast? = some m'.scopes.active
  checkpoints : m'.checkpoints = m.checkpoints
  report : m'.report = m.report
  nextId : m'.nextId = m.nextId

theorem Aligned.dropped {m : Machine} (aligned : Aligned m) : m.Dropped m.abort := by
  have idle := aligned.abort
  have abort : m.abort =
      { m.releaseAll m.frames.toList with
        frames := .empty, control := .none, pending := none, openQuotes := 0, openParams := 0 } :=
    rfl
  have scopes := Machine.scopes_releaseAll (Nat.le_of_eq aligned.saved.symm)
  have outermost : m.scopes.toList.getLast? = some m.abort.scopes.active := by
    have last := congrArg List.getLast? scopes
    rw [List.getLast?_drop, if_neg (by simp [aligned.saved, Scopes.depth])] at last
    have single : m.abort.scopes.toList = [m.abort.scopes.active] := by
      rw [Scopes.toList, idle.saved]
    rw [← last]
    exact congrArg List.getLast? single
  rw [Machine.releaseAll_eq] at abort
  refine ⟨idle, rfl, ?_, outermost, ?_, ?_, ?_⟩ <;> rw [abort]
  rfl

/-! ### What holds in every run -/

/-- What holds of a run whatever its host does. -/
structure Run.Sound (r : Run) : Prop where
  aligned : Aligned r.machine
  waiting : r.machine.control = .suspend ∨ r.machine.pending = none
  settled : r.outcome.isSome → r.machine.Idle ∧ r.machine.control = .none

/-- What a step of an unsettled run on the machine `m` says and leaves. -/
structure Run.Stepped (m : Machine) (x : Progress × Run) : Prop where
  sound : x.2.Sound
  settled : ∀ outcome, x.2.outcome = some outcome ↔ x.1 = .settled outcome
  cancelled : x.1 = .settled .cancelled → m.Dropped x.2.machine

namespace Run

variable {r s : Run} {m : Machine} {outcome : Outcome}

theorem Begins.sound (begins : Begins m r) (idle : m.Idle) : r.Sound := by
  cases begins with
  | program tokens =>
    obtain ⟨aligned, waiting⟩ := (Machine.Loaded.program tokens).sound idle
    exact ⟨aligned, waiting, by simp [start]⟩
  | value v =>
    obtain ⟨aligned, waiting⟩ := (Machine.Loaded.value v).sound idle
    exact ⟨aligned, waiting, by simp [startValue]⟩

theorem stepped_settleCancelled (aligned : Aligned r.machine) :
    Stepped r.machine r.settleCancelled where
  sound := ⟨aligned.abort.aligned, .inr rfl, fun _ => ⟨aligned.abort, rfl⟩⟩
  settled outcome := by simp [settleCancelled, settle]
  cancelled _ := aligned.dropped

/-- A run that goes on. -/
theorem Sound.goesOn {progress : Progress} (sound : s.Sound) (unsettled : s.outcome = none)
    (other : ∀ outcome, progress ≠ .settled outcome) : Stepped m (progress, s) where
  sound := sound
  settled outcome := iff_of_false (by simp [unsettled]) (other outcome)
  cancelled settled := absurd settled (other _)

section

variable (aligned : Aligned r.machine)
include aligned

theorem stepped_answer (free : r.machine.pending = none) (unsettled : r.outcome = none)
    (reply : Reply Value) : Stepped m (r.answer reply) := by
  obtain ⟨floors, layered, covered, saved⟩ := aligned
  cases reply with
  | value v =>
    have higher : Aligned (r.machine.resume (some v)) :=
      ⟨floors, layered, Nat.le_succ_of_le covered, saved⟩
    exact Sound.goesOn ⟨higher, .inr free, by simp [unsettled]⟩ unsettled (by simp)
  | nothing =>
    exact Sound.goesOn ⟨⟨floors, layered, covered, saved⟩, .inr free, by simp [unsettled]⟩
      unsettled (by simp)
  | failure e =>
    exact Sound.goesOn ⟨⟨floors, layered, covered, saved⟩, .inr free, by simp [unsettled]⟩
      unsettled (by simp)

theorem stepped_interrupt (pending : Pending Value) : Stepped r.machine (r.interrupt pending) := by
  rw [interrupt]
  split
  · next action _ =>
    exact stepped_settleCancelled
      (r := { r with
        interrupted := some pending.label, told := action :: r.told, cancelled := true }) aligned
  · exact stepped_settleCancelled (r := { r with cancelled := true }) aligned

theorem stepped_await (free : r.machine.pending = none) (unsettled : r.outcome = none)
    (patience : Patience) (pending : Pending Value) :
    Stepped r.machine (r.await patience pending) := by
  rw [await]
  split
  · next reply milliseconds _ =>
    exact stepped_answer (r := { r with waited := r.waited + milliseconds }) aligned free unsettled
      reply
  · exact stepped_interrupt aligned pending
  · exact Sound.goesOn ⟨aligned, .inr free, by simp [unsettled]⟩ unsettled (by simp)

theorem stepped_awaitPending (unsettled : r.outcome = none) (patience : Patience) :
    Stepped r.machine (r.awaitPending patience) := by
  obtain ⟨floors, layered, covered, saved⟩ := aligned
  rw [awaitPending]
  split
  · next pending _ =>
    have stepped := stepped_await (r := { r with machine := { r.machine with pending := none } })
      ⟨floors, layered, covered, saved⟩ rfl unsettled patience pending
    refine ⟨stepped.sound, stepped.settled, fun cancelled => ?_⟩
    -- The operation that was taken out of the machine is dropped in any case.
    obtain ⟨idle, control, operands, scope, checkpoints, report, nextId⟩ :=
      stepped.cancelled cancelled
    exact ⟨idle, control, operands, scope, checkpoints, report, nextId⟩
  · next free =>
    exact Sound.goesOn ⟨⟨floors, layered, covered, saved⟩, .inr free, by simp [unsettled]⟩
      unsettled (by simp)

end

theorem stepped_settle {said : Step} (kept : Kept (said, s.machine)) (final : said.isFinal = true)
    (other : outcome ≠ .cancelled) : Stepped m (s.settle outcome) where
  sound := ⟨kept.aligned, kept.waiting, fun _ => kept.idle final⟩
  settled outcome' := by simp [settle]
  cancelled settled := absurd (Progress.settled.inj settled) other

/-- Whenever a step settles a run as cancelled, it has done nothing else. -/
theorem Sound.stepped (sound : r.Sound) (unsettled : r.outcome = none) (patience : Patience) :
    Stepped r.machine (r.step patience) := by
  obtain ⟨machine, cancelled, outcome, interrupted, told, waited⟩ := r
  obtain rfl : outcome = none := unsettled
  have kept := sound.aligned.step sound.waiting
  have awaited := stepped_awaitPending sound.aligned rfl patience
  rw [step]
  cases cancelled with
  | true => exact stepped_settleCancelled sound.aligned
  | false =>
    dsimp only
    rw [if_neg Bool.false_ne_true]
    by_cases pending : machine.pending.isSome = true
    · rw [if_pos pending]
      exact awaited
    · rw [if_neg pending]
      cases stepped : machine.step with
      | mk said machine' =>
        rw [stepped] at kept
        cases said with
        | checkpoint => exact Sound.goesOn ⟨kept.aligned, kept.waiting, by simp⟩ rfl (by simp)
        | suspended =>
          obtain ⟨_, rfl⟩ := sound.aligned.of_suspended sound.waiting stepped
          exact awaited
        | done => exact stepped_settle kept rfl (by simp)
        | failed e => exact stepped_settle kept rfl (by simp)

theorem step_of_settled (settled : r.outcome = some outcome) (patience : Patience) :
    r.step patience = (.settled outcome, r) := by
  rw [step, settled]

theorem Driven.settled (driven : r.Driven s) (settled : r.outcome = some outcome) :
    s.outcome = some outcome ∧ s.machine = r.machine := by
  induction driven with
  | start => exact ⟨settled, rfl⟩
  | step patience _ ih => rwa [step_of_settled ih.1]
  | cancel _ ih => exact ih

theorem Driven.sound (driven : r.Driven s) (sound : r.Sound) : s.Sound := by
  induction driven with
  | start => exact sound
  | @step s patience _ ih =>
    cases settled : s.outcome with
    | some outcome => rwa [step_of_settled settled]
    | none => exact (ih.stepped settled patience).sound
  | cancel _ ih => exact ⟨ih.aligned, ih.waiting, ih.settled⟩

theorem step_of_checkpoint (unsettled : r.outcome = none) (wanted : r.cancelled = false)
    (free : r.machine.pending = none) (stepped : r.machine.step = (.checkpoint, m))
    (patience : Patience) : r.step patience = (.checkpoint, { r with machine := m }) := by
  simp [step, unsettled, wanted, free, stepped]

end Run

/-- Whatever the host of a run does, the run is settled at most once: from then on every step gives
the same outcome and the machine is left alone. A step is what settles a run. The first step after
the run was cancelled settles it as cancelled, and each step that does so, be it while the run waits
for an operation, only drops the work of the machine. -/
theorem run_settles_once {m : Machine} {r s : Run} (idle : m.Idle) (begins : Run.Begins m r)
    (driven : r.Driven s) :
    (∀ outcome, s.outcome = some outcome → ∀ t, s.Driven t →
      t.outcome = some outcome ∧ t.machine = s.machine ∧
        ∀ patience, t.step patience = (.settled outcome, t)) ∧
    (s.outcome = none → ∀ patience,
      (∀ outcome, (s.step patience).2.outcome = some outcome ↔
        (s.step patience).1 = .settled outcome) ∧
      (s.cancelled = true → (s.step patience).1 = .settled .cancelled) ∧
      ((s.step patience).1 = .settled .cancelled →
        s.machine.Dropped (s.step patience).2.machine)) := by
  have sound := driven.sound (begins.sound idle)
  refine ⟨fun outcome settled t later => ?_, fun unsettled patience => ?_⟩
  · obtain ⟨same, machine⟩ := later.settled settled
    exact ⟨same, machine, Run.step_of_settled same⟩
  · have stepped := sound.stepped unsettled patience
    refine ⟨stepped.settled, fun cancelled => ?_, stepped.cancelled⟩
    rw [Run.step, unsettled, cancelled]
    rfl

/-- A machine that holds a quotation with two numbers. -/
def Machine.quoting : Machine :=
  { registry := .standard
    operands := ⟨.ofList [.quote 0 [.int 1, .int 2]], []⟩
    nextId := 1 }

/-- The machine inside an attempt at the quotation. -/
def Machine.attempting : Machine :=
  { Machine.quoting with
    operands := .empty
    frames := .ofList [.body [.int 1, .int 2], .attempt 0, .body []]
    checkpoints := 1 }

/-- Cancelled inside the attempt, after the first number. -/
theorem run_settles_once_attempt :
    ∃ r, (Run.startValue .quoting (.op (.primitive .attempt) .none)).Driven r ∧
      r.machine.frames.toList.filterMap Frame.attemptHeight? = [0] ∧
      (r.step .unlimited).1 = .settled .cancelled ∧ (r.step .unlimited).2.machine.Idle ∧
      (r.step .unlimited).2.machine.operands.toList = [.int 1] := by
  have idle : Machine.quoting.Idle := ⟨rfl, rfl, rfl, rfl, rfl, rfl⟩
  have first := Run.step_of_checkpoint
    (r := .startValue .quoting (.op (.primitive .attempt) .none)) rfl rfl rfl
    (Machine.step_of_turn rfl (Machine.turn_attempt rfl rfl (by decide))) .unlimited
  have second := Run.step_of_checkpoint (r := { machine := .attempting }) rfl rfl rfl
    (Machine.step_of_turn rfl rfl) .unlimited
  have driven : (Run.startValue .quoting (.op (.primitive .attempt) .none)).Driven
      { machine := Machine.attempting.turn.2, cancelled := true } := by
    have twice : (Run.startValue .quoting (.op (.primitive .attempt) .none)).Driven _ :=
      .step .unlimited (.step .unlimited .start)
    rw [first] at twice
    exact .cancel (congrArg Prod.snd second ▸ twice)
  obtain ⟨_, unsettled⟩ := run_settles_once idle (.value _) driven
  obtain ⟨_, cancelled, dropped⟩ := unsettled rfl .unlimited
  have dropped := dropped (cancelled rfl)
  exact ⟨_, driven, rfl, cancelled rfl, dropped.idle, dropped.operands⟩

end Catena
