import Catena.Proofs.Cancellation

set_option autoImplicit false

/-!
Starting over. A host may give up a run at any moment and start another one on the same machine. A
new program drops the frames of the old one, but not what they held: the floors and scopes of
running closures and updates, open containers and an outstanding operation stay. So the new run goes
as on a machine that was told to abort exactly if the old one held none of these.
-/

namespace Catena

/-! ### What a host sees -/

/-- What a host may do with a run. -/
inductive HostAction where
  | step (patience : Patience)
  | cancel
  deriving DecidableEq, Repr

namespace Run

/-- What comes of a host's actions: the progress that the steps report, and the run. -/
def drive : List HostAction → Run → List Progress × Run
  | [], r => ([], r)
  | .cancel :: actions, r => r.cancel.drive actions
  | .step patience :: actions, r =>
    let x := r.step patience
    let y := x.2.drive actions
    (x.1 :: y.1, y.2)

/-- No host can tell the runs apart: whatever it does, they report the same progress and have the
same outcome, and at the end they have left the same operands and scopes. -/
def Indistinct (r s : Run) : Prop :=
  ∀ actions, (r.drive actions).1 = (s.drive actions).1 ∧
    (r.drive actions).2.outcome = (s.drive actions).2.outcome ∧
    ((r.drive actions).2.outcome.isSome →
      (r.drive actions).2.machine.operands = (s.drive actions).2.machine.operands ∧
      (r.drive actions).2.machine.scopes = (s.drive actions).2.machine.scopes)

theorem Indistinct.refl (r : Run) : Indistinct r r := fun _ => ⟨rfl, rfl, fun _ => ⟨rfl, rfl⟩⟩

end Run

/-! ### What a run may hold -/

/-- No closure is running, no field is being updated, no container is open and no operation is
outstanding. -/
structure Machine.Unheld (m : Machine) : Prop where
  floors : ∀ f ∈ m.frames.toList, f.floor? = none
  quiet : m.isCollecting = false
  pending : m.pending = none

theorem floorsOf_eq_nil_iff {frames : List Frame} :
    floorsOf frames = [] ↔ ∀ f ∈ frames, f.floor? = none := by
  rw [floorsOf, List.filterMap_eq_nil_iff]

theorem callsIn_of_floors {frames : List Frame} (free : ∀ f ∈ frames, f.floor? = none) :
    callsIn frames = 0 := by
  refine List.countP_eq_zero.2 fun f member call => ?_
  cases f with
  | call c floor => cases free _ member
  | _ => cases call

namespace Machine

variable {m : Machine}

/-- Aborting a machine that holds nothing changes nothing that a new program does not set. -/
theorem Unheld.load_abort (unheld : m.Unheld) (tokens : List Token) :
    m.abort.load tokens = m.load tokens := by
  have quiet := unheld.quiet
  simp only [isCollecting, Bool.or_eq_false_iff, decide_eq_false_iff_not, Nat.not_lt,
    Nat.le_zero] at quiet
  have released : m.releaseAll m.frames.toList = m := by
    rw [releaseAll_eq, callsIn_of_floors unheld.floors, floorsOf_eq_nil_iff.2 unheld.floors]
    rfl
  have aborted : m.abort = { m.releaseAll m.frames.toList with
      frames := .empty, control := .none, pending := none, openQuotes := 0, openParams := 0 } := rfl
  rw [aborted, released]
  simp only [load, unheld.pending, quiet.1, quiet.2]

/-- The empty program has nothing to do but to end. -/
theorem step_load_nil (m : Machine) :
    (m.load []).step = finish { m with frames := .empty, control := .none } := by
  have calm : (m.load []).step = (m.load []).proceed := rfl
  have first : (m.load []).turn = (none, { m with frames := .empty, control := .none }) := rfl
  have last : turn { m with frames := .empty, control := .none } =
      ending (finish { m with frames := .empty, control := .none }) := rfl
  rw [calm, proceed_eq_turn, first]
  change proceed _ = _
  rw [proceed_eq_turn, last]
  rfl

theorem step_load_nil_done (m : Machine) (quiet : m.isCollecting = false) :
    (m.load []).step = (.done, { m with frames := .empty, control := .none }) := by
  rw [step_load_nil, finish, if_neg (fun collecting => ?_)]
  cases quiet.symm.trans collecting

end Machine

namespace Run

variable {r : Run} {m m' : Machine}

theorem step_of_outcome {said : Step} {outcome : Outcome} (unsettled : r.outcome = none)
    (unwanted : r.cancelled = false) (free : r.machine.pending = none)
    (stepped : r.machine.step = (said, m')) (ends : said.outcome? = some outcome)
    (patience : Patience) : r.step patience = settle { r with machine := m' } outcome := by
  cases said <;> cases ends <;> simp [step, unsettled, unwanted, free, stepped]

/-- With no operation outstanding and no container open, the empty program is completed at once. -/
theorem start_nil_completed (free : m.pending = none) (quiet : m.isCollecting = false) :
    (start m []).step .unlimited =
      settle { machine := { m with frames := .empty, control := .none } } .completed :=
  step_of_outcome rfl rfl free (m.step_load_nil_done quiet) rfl .unlimited

/-- With a container open, it fails. -/
theorem start_nil_failed (free : m.pending = none) (collecting : m.isCollecting = true) :
    ((start m []).step .unlimited).1 = .settled (.failed (m.locate .unclosed)) := by
  let left : Machine := { m with frames := .empty, control := .none }
  have open' : left.isCollecting = true := collecting
  have ended : (m.load []).step = (.failed (m.locate .unclosed), left.abort) := by
    rw [Machine.step_load_nil, Machine.finish, if_pos open', Machine.fail]
    exact Machine.raiseError_of_passed (m := left) (List.forall_mem_nil _) _
  rw [step_of_outcome (r := start m []) rfl rfl free ended rfl .unlimited]
  rfl

/-- With an operation outstanding, the host waits for that operation. -/
theorem start_nil_waits {a : Pending Value} (waits : m.pending = some a) :
    ((start m []).step .unlimited).1 ≠ .settled .completed := by
  have waited : (start m []).step .unlimited = (start m []).awaitPending .unlimited := by
    simp [step, start, Machine.load, waits]
  have patient := Future.unlimited_wait_ne a.future
  have pending : (start m []).machine.pending = some a := waits
  rw [waited, awaitPending, pending]
  simp only [await]
  cases outcome : Patience.unlimited.wait a.future with
  | reply reply time => simp [answer]
  | gaveUp => simp
  | cancelled => exact absurd outcome patient

/-- The empty program tells whether a machine held anything. -/
theorem Indistinct.unheld (aligned : Aligned m)
    (same : Indistinct (start m []) (start m.abort [])) : m.Unheld := by
  have idle := aligned.abort
  have completed := start_nil_completed idle.pending
    (by simp [Machine.isCollecting, idle.openQuotes, idle.openParams])
  obtain ⟨progress, _, left⟩ := same [.step .unlimited]
  simp only [drive] at progress left
  rw [completed] at progress left
  have first := (List.cons.inj progress).1
  have free : m.pending = none := by
    cases waits : m.pending with
    | none => rfl
    | some a => exact absurd first (start_nil_waits waits)
  have quiet : m.isCollecting = false := by
    cases collecting : m.isCollecting with
    | false => rfl
    | true =>
      rw [start_nil_failed free collecting] at first
      cases first
  rw [start_nil_completed free quiet] at left
  have floors : m.operands.floors = [] := by
    rw [show m.operands = m.abort.operands from (left rfl).1]
    exact idle.floors
  refine ⟨?_, quiet, free⟩
  rw [← floorsOf_eq_nil_iff, ← aligned.floors]
  exact floors

end Run

/-- Whatever a host has done with a run on an idle machine before it gave it up: all programs run as
if the machine had been told to abort first if and only if, at that moment, no closure was running,
no field was being updated, no container was open and no operation was outstanding. -/
theorem restart_indistinct_iff {m : Machine} {r s : Run} (idle : m.Idle) (begins : Run.Begins m r)
    (driven : r.Driven s) :
    (∀ tokens, Run.Indistinct (.start s.machine tokens) (.start s.machine.abort tokens)) ↔
      s.machine.Unheld := by
  constructor
  · intro same
    exact (same []).unheld (driven.sound (begins.sound idle)).aligned
  · intro unheld tokens
    have started : Run.start s.machine.abort tokens = Run.start s.machine tokens := by
      rw [Run.start, unheld.load_abort, Run.start]
    rw [started]
    exact .refl _

/-- A run can be given up between two tokens, but not inside a closure. -/
theorem restart_indistinct_iff_call :
    ∃ s t, (Run.start .knowing [⟨.int 5, .none⟩, ⟨.name "f", .none⟩]).Driven s ∧ s.Driven t ∧
      s.machine.operands.toList = [.int 5] ∧
      (∀ tokens, Run.Indistinct (.start s.machine tokens) (.start s.machine.abort tokens)) ∧
      callsIn t.machine.frames.toList = 1 ∧
      ¬ ∀ tokens, Run.Indistinct (.start t.machine tokens) (.start t.machine.abort tokens) := by
  have idle : Machine.knowing.Idle := ⟨rfl, rfl, rfl, rfl, rfl, rfl⟩
  let r := Run.start .knowing [⟨.int 5, .none⟩, ⟨.name "f", .none⟩]
  let s : Run := { machine := r.machine.turn.2 }
  let t : Run := { machine := s.machine.turn.2 }
  have pushed : r.step .unlimited = (.checkpoint, s) :=
    Run.step_of_checkpoint rfl rfl rfl (Machine.step_of_turn rfl rfl) .unlimited
  have called : s.step .unlimited = (.checkpoint, t) :=
    Run.step_of_checkpoint rfl rfl rfl (Machine.step_of_turn rfl rfl) .unlimited
  have first : r.Driven s := by
    have next := Run.Driven.step .unlimited (.start (r := r))
    rwa [pushed] at next
  have second : s.Driven t := by
    have next := Run.Driven.step .unlimited (.start (r := s))
    rwa [called] at next
  have both : r.Driven t := by
    have next := Run.Driven.step .unlimited first
    rwa [called] at next
  have unheld : s.machine.Unheld := ⟨List.forall_mem_singleton.2 rfl, rfl, rfl⟩
  have held : ¬ t.machine.Unheld := by
    intro unheld
    have floors : floorsOf t.machine.frames.toList = [1] := rfl
    cases floors.symm.trans (floorsOf_eq_nil_iff.2 unheld.floors)
  have begins : Run.Begins .knowing r := .program _
  refine ⟨s, t, first, second, rfl, (restart_indistinct_iff idle begins first).2 unheld, rfl, ?_⟩
  intro same
  exact held ((restart_indistinct_iff idle begins both).1 same)

/-- A run that is given up inside a quotation makes the next one fail. -/
theorem exists_restart_failing :
    ∃ s, (Run.start (.new .standard) [⟨.opening .quote, .none⟩]).Driven s ∧
      ((Run.start s.machine [⟨.int 1, .none⟩]).drive [.step .unlimited, .step .unlimited]).1 =
        [.checkpoint, .settled (.failed ⟨.unclosed, some .none⟩)] ∧
      ((Run.start s.machine.abort [⟨.int 1, .none⟩]).drive
        [.step .unlimited, .step .unlimited]).1 = [.checkpoint, .settled .completed] := by
  let r := Run.start (.new .standard) [⟨.opening .quote, .none⟩]
  let s : Run := { machine := r.machine.turn.2 }
  have opened : r.step .unlimited = (.checkpoint, s) :=
    Run.step_of_checkpoint rfl rfl rfl (Machine.step_of_turn rfl rfl) .unlimited
  have driven : r.Driven s := by
    have next := Run.Driven.step .unlimited (.start (r := r))
    rwa [opened] at next
  -- After the number, the empty program is left.
  let pushed (m : Machine) : Machine :=
    { m with
      operands := m.operands.push (.int 1)
      origin := .none
      checkpoints := m.checkpoints + 1 }
  have pushes (m : Machine) (free : m.pending = none) :
      (Run.start m [⟨.int 1, .none⟩]).step .unlimited = (.checkpoint, .start (pushed m) []) :=
    Run.step_of_checkpoint rfl rfl free (Machine.step_of_turn rfl rfl) .unlimited
  have failed := Run.start_nil_failed (m := pushed s.machine) rfl rfl
  have completed := Run.start_nil_completed (m := pushed s.machine.abort) rfl rfl
  refine ⟨s, driven, ?_, ?_⟩
  · simp only [Run.drive, pushes s.machine rfl, failed]
    rfl
  · simp only [Run.drive, pushes s.machine.abort rfl, completed]
    rfl

end Catena
