import Catena.Proofs.Cancellation

set_option autoImplicit false

/-!
What becomes of the operations that a run waits for. An operation is outstanding from the checkpoint
that raises it to the next step of the run, which waits for it. It is answered there, or interrupted
because the host cancels the run meanwhile, or lost because the host stops waiting. A run that was
cancelled before that step does not wait, and the operation is dropped. Cancel actions are carried
out for the operations that were interrupted, and for no others: not for those that were dropped.
-/

namespace Catena

/-! ### The record of a run -/

/-- What has become of an operation. -/
inductive Fate where
  | awaited
  | answered
  | interrupted
  /-- The run was cancelled before it came to wait. -/
  | dropped
  /-- The host has stopped waiting. -/
  | lost
  deriving DecidableEq, Repr

/-- Operations and what has become of them, the latest first. -/
abbrev Operations := List (Pending Value × Fate)

namespace Run

/-- What a step makes of the operation that is outstanding before it, by what it reports. -/
def fateAfter (r : Run) (patience : Patience) : Fate :=
  match (r.step patience).1 with
  | .checkpoint => .awaited
  | .resumed => .answered
  | .settled _ => if r.cancelled then .dropped else .interrupted
  | .stuck => .lost

/-- The record of operations after a step. -/
def record (r : Run) (patience : Patience) (ops : Operations) : Operations :=
  match r.machine.pending with
  | some a => (a, r.fateAfter patience) :: ops.tail
  | none => ((r.step patience).2.machine.pending.map fun a => (a, .awaited)).toList ++ ops

/-- The runs that come from a run by what its host does, with the record of their operations. -/
inductive Recorded (r : Run) : Operations → Run → Prop
  | start : Recorded r [] r
  | step {ops s} (patience : Patience) : Recorded r ops s →
      Recorded r (s.record patience ops) (s.step patience).2
  | cancel {ops s} : Recorded r ops s → Recorded r ops s.cancel

end Run

/-- The cancel action that an operation calls for. -/
def toldOf : Pending Value × Fate → Option CancelAction
  | (a, .interrupted) => a.cancel
  | _ => none

/-- The name under which it is reported. -/
def labelOf : Pending Value × Fate → Option String
  | (a, .interrupted) => a.cancel.map fun _ => a.label
  | _ => none

namespace Run

variable {m : Machine} {r s : Run} {a : Pending Value} {ops rest : Operations}

theorem Recorded.driven (recorded : r.Recorded ops s) : r.Driven s := by
  induction recorded with
  | start => exact .start
  | step patience _ ih => exact .step patience ih
  | cancel _ ih => exact .cancel ih

/-- There is a record of whatever the host does. -/
theorem Driven.recorded (driven : r.Driven s) : ∃ ops, r.Recorded ops s := by
  induction driven with
  | start => exact ⟨[], .start⟩
  | step patience _ ih =>
    obtain ⟨ops, recorded⟩ := ih
    exact ⟨_, .step patience recorded⟩
  | cancel _ ih =>
    obtain ⟨ops, recorded⟩ := ih
    exact ⟨ops, .cancel recorded⟩

/-! ### What a record says -/

/-- The record accounts for what the run has done about its operations. -/
structure Accounts (ops : Operations) (r : Run) : Prop where
  told : r.told = ops.filterMap toldOf
  interrupted : r.interrupted = ops.findSome? labelOf
  outstanding : ∀ a, r.machine.pending = some a ↔ ops.head? = some (a, .awaited)
  earlier : ∀ op ∈ ops.tail, op.2 = .answered ∨ op.2 = .lost
  ended : ∀ op ∈ ops, op.2 = .interrupted ∨ op.2 = .dropped → r.outcome = some .cancelled

namespace Accounts

/-- No operation is awaited that is not outstanding. -/
theorem not_awaited (accounts : Accounts ops r) (free : r.machine.pending = none) :
    ∀ op ∈ ops, op.2 ≠ .awaited := by
  intro op member awaited
  cases ops with
  | nil => cases member
  | cons first ops =>
    rcases List.mem_cons.1 member with rfl | inside
    · have waits := (accounts.outstanding op.1).2 (by rw [← awaited]; rfl)
      rw [free] at waits
      cases waits
    · rcases accounts.earlier op inside with fate | fate <;> simp [fate] at awaited

/-- A run that is not settled and has no operation outstanding has done with all of them. -/
theorem closed (accounts : Accounts ops r) (unsettled : r.outcome = none)
    (free : r.machine.pending = none) : ∀ op ∈ ops, op.2 = .answered ∨ op.2 = .lost := by
  intro op member
  have goesOn : ¬ (op.2 = .interrupted ∨ op.2 = .dropped) := by
    intro ends
    have settled := accounts.ended op member ends
    rw [unsettled] at settled
    cases settled
  have answered := accounts.not_awaited free op member
  obtain ⟨a, fate⟩ := op
  cases fate <;> simp at goesOn answered ⊢

/-- Only the latest operation may have been told. -/
theorem told_latest {fate : Fate} (accounts : Accounts ((a, fate) :: rest) r) :
    r.told = (toldOf (a, fate)).toList ∧ r.interrupted = labelOf (a, fate) := by
  have untold (op : Pending Value × Fate) (member : op ∈ rest) :
      toldOf op = none ∧ labelOf op = none := by
    obtain ⟨b, fate⟩ := op
    rcases accounts.earlier _ member with known | known <;> cases known <;> exact ⟨rfl, rfl⟩
  have actions : rest.filterMap toldOf = [] :=
    List.filterMap_eq_nil_iff.2 fun op member => (untold op member).1
  have labels : rest.findSome? labelOf = none :=
    List.findSome?_eq_none_iff.2 fun op member => (untold op member).2
  rw [accounts.told, accounts.interrupted, List.filterMap_cons, List.findSome?_cons, actions,
    labels]
  constructor
  · cases toldOf (a, fate) <;> rfl
  · cases labelOf (a, fate) <;> rfl

/-- A step that has nothing to wait for may raise an operation. -/
theorem raise (accounts : Accounts ops r) (unsettled : r.outcome = none)
    (free : r.machine.pending = none) (told : s.told = r.told)
    (interrupted : s.interrupted = r.interrupted) :
    Accounts ((s.machine.pending.map fun a => (a, .awaited)).toList ++ ops) s := by
  have done := accounts.closed unsettled free
  have none (op : Pending Value × Fate) (member : op ∈ ops) :
      ¬ (op.2 = .interrupted ∨ op.2 = .dropped) := by
    rcases done op member with fate | fate <;> simp [fate]
  cases waits : s.machine.pending with
  | none =>
    refine ⟨told.trans accounts.told, interrupted.trans accounts.interrupted, fun a => ?_,
      accounts.earlier, fun op member ends => absurd ends (none op member)⟩
    change _ ↔ ops.head? = _
    rw [← accounts.outstanding, waits, free]
  | some b =>
    refine ⟨told.trans accounts.told, interrupted.trans accounts.interrupted, fun a => ?_, done, ?_⟩
    · simp [waits]
    · intro op member ends
      rcases List.mem_cons.1 member with rfl | inside
      · simp at ends
      · exact absurd ends (none op inside)

/-- A step that deals with the operation that is outstanding. -/
theorem close (accounts : Accounts ((a, .awaited) :: rest) r) (fate : Fate)
    (told : s.told = (toldOf (a, fate)).toList ++ r.told)
    (interrupted : s.interrupted = (labelOf (a, fate)).or r.interrupted)
    (free : s.machine.pending = none) (known : fate ≠ .awaited)
    (ended : fate = .interrupted ∨ fate = .dropped → s.outcome = some .cancelled) :
    Accounts ((a, fate) :: rest) s where
  told := by
    rw [told, accounts.told, List.filterMap_cons_none (by rfl)]
    cases called : toldOf (a, fate) with
    | none => rw [List.filterMap_cons_none called, Option.toList_none, List.nil_append]
    | some action => rw [List.filterMap_cons_some called, Option.toList_some, List.singleton_append]
  interrupted := by
    have silent : labelOf (a, .awaited) = none := rfl
    rw [interrupted, accounts.interrupted]
    simp only [List.findSome?_cons, silent]
    cases labelOf (a, fate) <;> rfl
  outstanding b := by simp [free, known]
  earlier := accounts.earlier
  ended op member ends := by
    rcases List.mem_cons.1 member with rfl | inside
    · exact ended ends
    · rcases accounts.earlier op inside with fate | fate <;> simp [fate] at ends

end Accounts

/-! ### Steps -/

theorem step_of_cancelled (unsettled : r.outcome = none) (wanted : r.cancelled = true)
    (patience : Patience) : r.step patience = r.settleCancelled := by
  rw [step, unsettled, wanted]
  rfl

theorem step_of_pending (unsettled : r.outcome = none) (unwanted : r.cancelled = false)
    (waits : r.machine.pending = some a) (patience : Patience) :
    r.step patience =
      await { r with machine := { r.machine with pending := none } } patience a := by
  simp [step, awaitPending, unsettled, unwanted, waits]

/-- Without an operation to wait for, nothing is told. -/
theorem Sound.told_of_free (sound : r.Sound) (unsettled : r.outcome = none)
    (free : r.machine.pending = none) (patience : Patience) :
    (r.step patience).2.told = r.told ∧ (r.step patience).2.interrupted = r.interrupted := by
  cases wanted : r.cancelled with
  | true =>
    rw [step_of_cancelled unsettled wanted]
    exact ⟨rfl, rfl⟩
  | false =>
    simp only [step, unsettled, wanted, free, Option.isSome_none]
    cases stepped : r.machine.step with
    | mk said machine =>
      cases said with
      | suspended =>
        obtain ⟨_, rfl⟩ := sound.aligned.of_suspended sound.waiting stepped
        simp [awaitPending, free]
      | _ => exact ⟨rfl, rfl⟩

/-- The step that waits for an operation closes the record on it. -/
theorem Accounts.await (accounts : Accounts ((a, .awaited) :: rest) r)
    (unsettled : r.outcome = none) (waits : r.machine.pending = some a) (patience : Patience) :
    Accounts ((a, r.fateAfter patience) :: rest) (r.step patience).2 := by
  unfold fateAfter
  cases wanted : r.cancelled with
  | true =>
    rw [step_of_cancelled unsettled wanted]
    exact accounts.close .dropped rfl rfl rfl (by decide) fun _ => rfl
  | false =>
    rw [step_of_pending unsettled wanted waits, Run.await]
    cases patience.wait a.future with
    | reply reply time =>
      cases reply <;> exact accounts.close .answered rfl rfl rfl (by decide) (by simp)
    | gaveUp => exact accounts.close .lost rfl rfl rfl (by decide) (by simp)
    | cancelled =>
      simp only [interrupt]
      cases action : a.cancel <;>
      · refine accounts.close .interrupted ?_ ?_ rfl (by decide) fun _ => rfl
        · simp [toldOf, action, settleCancelled, settle]
        · simp [labelOf, action, settleCancelled, settle]

theorem Accounts.step (accounts : Accounts ops r) (sound : r.Sound) (patience : Patience) :
    Accounts (r.record patience ops) (r.step patience).2 := by
  unfold record
  cases waits : r.machine.pending with
  | some a =>
    have unsettled : r.outcome = none := by
      cases settled : r.outcome with
      | none => rfl
      | some outcome =>
        have free := (sound.settled (by simp [settled])).1.pending
        rw [waits] at free
        cases free
    have first := (accounts.outstanding a).1 waits
    cases ops with
    | nil => cases first
    | cons op rest =>
      obtain rfl := Option.some.inj first
      exact accounts.await unsettled waits patience
  | none =>
    cases settled : r.outcome with
    | some outcome =>
      rw [step_of_settled settled, waits]
      exact accounts
    | none =>
      obtain ⟨told, interrupted⟩ := sound.told_of_free settled waits patience
      exact accounts.raise settled waits told interrupted

theorem Recorded.accounts (recorded : r.Recorded ops s) (sound : r.Sound)
    (accounts : Accounts [] r) : Accounts ops s := by
  induction recorded with
  | start => exact accounts
  | step patience before ih => exact ih.step (before.driven.sound sound) patience
  | cancel _ ih => exact ⟨ih.told, ih.interrupted, ih.outstanding, ih.earlier, ih.ended⟩

theorem Begins.accounts (begins : Begins m r) (idle : m.Idle) : Accounts [] r := by
  have free : r.machine.pending = none := by cases begins <;> exact idle.pending
  have untold : r.told = [] ∧ r.interrupted = none := by cases begins <;> exact ⟨rfl, rfl⟩
  exact ⟨untold.1, untold.2, fun a => by simp [free], by simp, by simp⟩

end Run

/-- Whatever the host of a run does, there is a record of the operations that the run has raised,
and the cancel actions that were carried out are those of the operations that were interrupted.
At most the latest operation has been interrupted or dropped, which settles the run as cancelled;
all others have been answered or lost, and none is awaited once the run is settled.

So if a step settles the run as cancelled while an operation is outstanding, the operation is told,
once, and reported if the run was cancelled during that step. If it was cancelled before, nothing is
told. -/
theorem told_of_interrupted {m : Machine} {r s : Run} (idle : m.Idle) (begins : Run.Begins m r)
    (driven : r.Driven s) :
    (∃ ops, r.Recorded ops s) ∧
    (∀ ops, r.Recorded ops s →
      s.told = ops.filterMap toldOf ∧ s.interrupted = ops.findSome? labelOf ∧
      (∀ op ∈ ops.tail, op.2 = .answered ∨ op.2 = .lost) ∧
      (∀ op ∈ ops, op.2 = .interrupted ∨ op.2 = .dropped → s.outcome = some .cancelled) ∧
      (s.outcome.isSome → ∀ op ∈ ops, op.2 ≠ .awaited)) ∧
    ∀ a patience, s.machine.pending = some a → (s.step patience).1 = .settled .cancelled →
      (s.step patience).2.told = (if s.cancelled then [] else a.cancel.toList) ∧
      (s.step patience).2.interrupted =
        if s.cancelled then none else a.cancel.map fun _ => a.label := by
  have sound := begins.sound idle
  have accounted (ops : Operations) (recorded : r.Recorded ops s) : Run.Accounts ops s :=
    recorded.accounts sound (begins.accounts idle)
  refine ⟨driven.recorded, fun ops recorded => ?_, fun a patience waits settled => ?_⟩
  · have accounts := accounted ops recorded
    refine ⟨accounts.told, accounts.interrupted, accounts.earlier, accounts.ended, ?_⟩
    intro settled
    exact accounts.not_awaited ((driven.sound sound).settled settled).1.pending
  · obtain ⟨ops, recorded⟩ := driven.recorded
    have accounts := (accounted ops recorded).step (driven.sound sound) patience
    have fate : s.fateAfter patience = if s.cancelled then .dropped else .interrupted := by
      rw [Run.fateAfter, settled]
    rw [Run.record, waits, fate] at accounts
    rw [accounts.told_latest.1, accounts.told_latest.2]
    cases s.cancelled <;> exact ⟨rfl, rfl⟩

/-! ### An operation that never ends -/

/-- An operation that never answers and asks to be told. -/
def Pending.waiting : Pending Value := ⟨"wait", .never, some .signal⟩

/-- An operation that answers at once. -/
def Pending.fetching : Pending Value := ⟨"fetch", .ready (.value (.int 7)), some .signal⟩

/-- The builtin that raises an operation. -/
def Pending.builtin (a : Pending Value) : Operation Value := .builtin ⟨a.label, .await a⟩

/-- A machine on which `g` is a closure that raises an operation that answers and one that does
not. -/
def Machine.raising : Machine :=
  { registry := .standard
    scopes := ⟨⟨[("g", .closure ⟨0, some "g", [.op Pending.fetching.builtin .none,
      .op Pending.waiting.builtin .none], none, .empty⟩)]⟩, []⟩
    nextId := 1 }

/-- The machine when code has run into an operation and waits for it. -/
def Machine.asleep (m : Machine) (a : Pending Value) (more : List Value) (below : Stack Frame) :
    Machine :=
  { m with
    origin := .none
    frames := below.push (.body more)
    control := .suspend
    pending := some a
    checkpoints := m.checkpoints + 1 }

theorem Run.step_of_await {r : Run} {a : Pending Value} {more : List Value} {below : Stack Frame}
    (unsettled : r.outcome = none) (unwanted : r.cancelled = false)
    (free : r.machine.pending = none) (calm : r.machine.heed = (none, r.machine))
    (top : r.machine.frames.pop? = some (.body (.op a.builtin .none :: more), below))
    (patience : Patience) :
    r.step patience = (.checkpoint, { r with machine := r.machine.asleep a more below }) := by
  have raised : Exec.operation a.builtin
      { r.machine with origin := .none, frames := below.push (.body more) } =
      .error (.await a) { r.machine with origin := .none, frames := below.push (.body more) } := rfl
  have turned := Machine.turn_of_signal top raised
  exact step_of_checkpoint unsettled unwanted free (Machine.step_of_turn calm turned) patience

namespace Run

variable {r s s' : Run} {ops : Operations} {a : Pending Value} {said : Progress}
  {patience : Patience}

theorem Recorded.works (recorded : r.Recorded ops s) (free : s.machine.pending = none)
    (stepped : s.step patience = (said, s')) :
    r.Recorded ((s'.machine.pending.map fun a => (a, .awaited)).toList ++ ops) s' := by
  have next := recorded.step patience
  rwa [record, free, stepped] at next

theorem Recorded.waits (recorded : r.Recorded ops s) (waits : s.machine.pending = some a)
    (stepped : s.step patience = (said, s')) :
    r.Recorded ((a, s.fateAfter patience) :: ops.tail) s' := by
  have next := recorded.step patience
  rwa [record, waits, stepped] at next

end Run

/-- An operation is answered, then another one is interrupted: only the second one is told. -/
theorem told_of_interrupted_second :
    ∃ r s, (Run.startValue .raising (.ref "g" .none)).Driven r ∧
      r.machine.pending = some .waiting ∧
      (Run.startValue .raising (.ref "g" .none)).Recorded
        [(.waiting, .awaited), (.fetching, .answered)] r ∧
      r.step .cancels = (.settled .cancelled, s) ∧ s.told = [.signal] ∧
      s.interrupted = some "wait" := by
  have idle : Machine.raising.Idle := ⟨rfl, rfl, rfl, rfl, rfl, rfl⟩
  let r₀ := Run.startValue .raising (.ref "g" .none)
  let r₁ : Run := { machine := r₀.machine.turn.2 }
  let below := r₁.machine.frames.drop 1
  let more : List Value := [.op Pending.waiting.builtin .none]
  let r₂ : Run := { machine := r₁.machine.asleep .fetching more below }
  let r₃ : Run := { machine := r₂.machine.answer (.value (.int 7)) }
  let r₄ : Run := { machine := r₃.machine.asleep .waiting [] below }
  have called : r₀.step .unlimited = (.checkpoint, r₁) :=
    Run.step_of_checkpoint rfl rfl rfl (Machine.step_of_turn rfl rfl) .unlimited
  have fetches : r₁.step .unlimited = (.checkpoint, r₂) :=
    Run.step_of_await rfl rfl rfl rfl rfl .unlimited
  have answered : r₂.step .unlimited = (.resumed, r₃) := rfl
  have waits : r₃.step .unlimited = (.checkpoint, r₄) :=
    Run.step_of_await rfl rfl rfl rfl rfl .unlimited
  have raised : r₀.Recorded [(.fetching, .awaited)] r₂ :=
    (Run.Recorded.start.works rfl called).works rfl fetches
  have recorded : r₀.Recorded [(.waiting, .awaited), (.fetching, .answered)] r₄ :=
    (raised.waits rfl answered).works rfl waits
  obtain ⟨_, _, told⟩ := told_of_interrupted idle (.value (.ref "g" .none)) recorded.driven
  obtain ⟨told, reported⟩ := told .waiting .cancels rfl rfl
  exact ⟨r₄, _, recorded.driven, rfl, recorded, rfl, told, reported⟩

/-- A run that is cancelled after the checkpoint that raises an operation, and before the next step,
drops the operation without telling it. -/
theorem exists_dropped_untold :
    ∃ r s, r = Run.startValue .raising (.op Pending.waiting.builtin .none) ∧ Machine.raising.Idle ∧
      r.Recorded [(.waiting, .dropped)] s ∧ Pending.waiting.cancel = some .signal ∧
      s.outcome = some .cancelled ∧ s.told = [] ∧ s.interrupted = none := by
  let r₀ := Run.startValue .raising (.op Pending.waiting.builtin .none)
  let r₁ : Run := { machine := r₀.machine.asleep .waiting [] .empty }
  have raises : r₀.step .unlimited = (.checkpoint, r₁) :=
    Run.step_of_await rfl rfl rfl rfl rfl .unlimited
  have dropped : r₁.cancel.step .unlimited = (.settled .cancelled, (r₁.cancel.step .unlimited).2) :=
    rfl
  have recorded : r₀.Recorded [(.waiting, .awaited)] r₁ := Run.Recorded.start.works rfl raises
  exact ⟨r₀, _, rfl, ⟨rfl, rfl, rfl, rfl, rfl, rfl⟩, recorded.cancel.waits rfl dropped, rfl, rfl,
    rfl, rfl⟩

end Catena
