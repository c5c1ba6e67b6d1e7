import Catena.Proofs.Awaiting
import Catena.Proofs.Reframing
import Mathlib.Data.List.Induction

set_option autoImplicit false

/-!
Machines in the hands of a host, which loads programs, makes steps and resumes in any order it
likes. A step that stops for an operation outside records the operation, and only a step that fails
clears the record: neither resuming nor loading does. So when the machine has settled it still
counts as running if one of the steps has stopped and none has failed since.
-/

namespace Catena

/-! ### What dealing with frames leaves alone -/

namespace Exec

variable {α β : Type}

/-- Actions that leave the registers as they are, however they end. -/
def Discreet (x : Exec α) : Prop := ∀ m : Machine, (left (x m)).registers = m.registers

theorem Launches.discreet {x : Exec α} (launches : Launches x) : Discreet x := by
  intro m
  obtain ⟨_, adds⟩ := (launches m).adds
  exact adds.registers

theorem Works.discreet {x : Exec α} (works : Works x) : Discreet x := works.launches.discreet

theorem Quiet.discreet {x : Exec α} (quiet : Quiet x) : Discreet x := fun m => (quiet m).registers

theorem Discreet.bind {x : Exec α} {f : α → Exec β} (first : Discreet x)
    (next : ∀ a, Discreet (f a)) : Discreet (x >>= f) :=
  left_bind (fun m m' => m'.registers = m.registers) (fun before after => after.trans before)
    first next

theorem Discreet.thenPure {x : Exec α} (discreet : Discreet x) (b : β) :
    Discreet (do let _ ← x; pure b) :=
  discreet.bind fun _ => (quiet_pure b).discreet

theorem discreet_setFrames (frames : Stack Frame) : Discreet (setFrames frames) := fun _ => rfl

theorem discreet_token (t : Token) : Discreet (token t) := by
  intro m
  rcases token_collects t m with collects | ⟨_, launched⟩
  · exact collects.registers
  · obtain ⟨_, adds⟩ := launched.adds
    exact adds.registers

theorem discreet_leaveCall (c : Closure Value) (floor : Nat) (below : Stack Frame) :
    Discreet (leaveCall c floor below) := by
  have checked : Quiet (checkLeft c floor) := by
    unfold checkLeft
    split
    · exact quiet_get.bind fun _ => quiet_ofExcept _
    · exact quiet_pure ()
  exact checked.discreet.bind fun _ _ => rfl

theorem discreet_leaveUpdate (items : List Value) (field : Field) (types : Scope) (floor : Nat)
    (below : Stack Frame) : Discreet (leaveUpdate items field types floor below) :=
  fun m => quiet_writeLeft.discreet
    { m with frames := below, operands := m.operands.allow floor }

theorem discreet_checkCondition (action : Value) (pairs : List (Value × Value))
    (below : Stack Frame) : Discreet (checkCondition action pairs below) := by
  refine quiet_pop.discreet.bind fun v => ?_
  split
  · exact (discreet_setFrames below).bind fun _ => (launches_invoke action).discreet
  · exact discreet_setFrames _
  · exact (quiet_fail _).discreet

theorem discreet_advance (f : Frame) (below : Stack Frame) : Discreet (advance f below) := by
  cases f with
  | program tokens =>
    cases tokens with
    | nil => exact (discreet_setFrames below).thenPure _
    | cons t tokens =>
      exact (discreet_setFrames _).bind fun _ => (discreet_token t).thenPure _
  | body code =>
    cases code with
    | nil => exact (discreet_setFrames below).thenPure _
    | cons v code =>
      exact (discreet_setFrames _).bind fun _ => (launches_value v).discreet.thenPure _
  | call c floor => exact (discreet_leaveCall c floor below).thenPure _
  | loop body => exact (works_runBody body).discreet
  | iterate source index withIndex body =>
    simp only [advance]
    split
    · exact (discreet_setFrames _).bind fun _ => (quiet_pushElement _ _ _).discreet.bind fun _ =>
        (works_runBody body).discreet
    · exact (discreet_setFrames below).thenPure _
  | condTest pairs =>
    cases pairs with
    | nil => exact (discreet_setFrames below).thenPure _
    | cons pair pairs =>
      exact (discreet_setFrames _).bind fun _ => (launches_invoke pair.1).discreet.thenPure _
  | condCheck action pairs => exact (discreet_checkCondition action pairs below).thenPure _
  | attempt height => exact (discreet_setFrames below).thenPure _
  | update items field types floor =>
    exact (discreet_leaveUpdate items field types floor below).thenPure _

theorem discreet_leaveLoop : Discreet leaveLoop := by
  intro m
  rw [leaveLoop]
  split <;> exact m.registers_releaseAll _

theorem discreet_replaceCall (target : Closure Value) : Discreet (replaceCall target) := by
  intro m
  cases found : m.frames.split? Frame.callFloor? with
  | none =>
    simp only [replaceCall, Bind.bind, EStateM.bind, get_apply, found]
    rfl
  | some split =>
    obtain ⟨above, floor, below⟩ := split
    have bound := (works_bindParameters target).discreet.bind fun _ =>
      discreet_setFrames ((below.push (.call target floor)).push (.body target.body))
    rw [replaceCall_eq found]
    exact (bound _).trans (m.registers_releaseAll above)

end Exec

/-! ### What a step leaves outstanding -/

namespace Machine

/-- How a step that does something comes to rest, if `before` was outstanding when it started. -/
inductive Rests (before : Option (Pending Value)) : Step × Machine → Prop
  | pauses {m} (awake : m.control ≠ .suspend) (kept : m.pending = before) :
      Rests before (.checkpoint, m)
  /-- The step has stopped for an operation outside. -/
  | stops {m a} (asleep : m.control = .suspend) (raised : m.pending = some a) :
      Rests before (.checkpoint, m)
  | ends {m} (empty : m.frames.isEmpty = true) (awake : m.control ≠ .suspend)
      (kept : m.pending = before) : Rests before (.done, m)
  | fails {m e} (empty : m.frames.isEmpty = true) (awake : m.control ≠ .suspend)
      (cleared : m.pending = none) : Rests before (.failed e, m)

/-- How a part of a step ends that starts with no signal to heed. -/
def Carries (m : Machine) : Option Step × Machine → Prop
  | (none, m') => m'.registers = m.registers
  | (some s, m') => Rests m.pending (s, m')

variable {m m' : Machine} {s : Step}

theorem pending_of_registers (same : m'.registers = m.registers) : m'.pending = m.pending :=
  congrArg Registers.pending same

theorem control_of_registers (same : m'.registers = m.registers) : m'.control = m.control :=
  congrArg Registers.control same

section

variable (calm : m.control = .none)
include calm

theorem awake_of_calm : m.control ≠ .suspend := by
  rw [calm]
  intro asleep
  cases asleep

theorem rests_raiseError (e : LocatedError) : Rests m.pending (m.raiseError e) := by
  rw [raiseError]
  split
  · next above height below _ =>
    have same := m.registers_releaseAll above
    have pending := pending_of_registers same
    have control := (control_of_registers same).trans calm
    exact .pauses (awake_of_calm control) pending
  · exact .fails rfl (awake_of_calm rfl) rfl

theorem rests_interrupt (signal : Signal) : Rests m.pending (m.interrupt signal) := by
  cases signal with
  | error e => exact rests_raiseError calm _
  | «break» => exact .pauses (fun asleep => by cases asleep) rfl
  | tailCall target => exact .pauses (fun asleep => by cases asleep) rfl
  | await a => exact .stops rfl rfl

theorem rests_finish (empty : m.frames.isEmpty = true) : Rests m.pending m.finish := by
  rw [finish]
  split
  · exact rests_raiseError calm _
  · exact .ends empty (awake_of_calm calm) rfl

/-- A signal is dealt with by a machine that has the same operation outstanding. -/
theorem rests_interrupt_of_registers (same : m'.registers = m.registers) (signal : Signal) :
    Rests m.pending (m'.interrupt signal) := by
  rw [← pending_of_registers same]
  exact rests_interrupt ((control_of_registers same).trans calm) signal

theorem carries_turn : m.Carries m.turn := by
  rw [turn]
  split
  · next top =>
    have empty : m.frames.isEmpty = true := List.isEmpty_iff.2 (Stack.pop?_eq_none_iff.1 top)
    exact rests_finish calm empty
  · next frame below _ =>
    have same := Exec.discreet_advance frame below m
    generalize Exec.advance frame below m = x at same
    cases x with
    | error signal m' => exact rests_interrupt_of_registers calm same signal
    | ok tick m' =>
      cases tick with
      | internal => exact same
      | checkpoint =>
        have pending := pending_of_registers same
        have control := (control_of_registers same).trans calm
        exact .pauses (awake_of_calm control) pending

theorem carries_afterSignal {x : EStateM.Result Signal Machine Unit}
    (same : (Exec.left x).registers = m.registers) : m.Carries (afterSignal x) := by
  cases x with
  | ok _ m' => exact same
  | error signal m' => exact rests_interrupt_of_registers calm same signal

end

theorem carries_heed (awake : m.control ≠ .suspend) :
    Carries { m with control := .none } m.heed := by
  rw [heed]
  split
  · next calm => rw [Carries, ← calm]
  · next asleep => exact absurd asleep awake
  · exact rests_raiseError rfl _
  · exact carries_afterSignal rfl (Exec.discreet_leaveLoop _)
  · exact carries_afterSignal rfl (Exec.discreet_replaceCall _ _)

/-- Builtins stay, and a checkpoint has been counted exactly if it is the answer. -/
structure Tallied (before : Machine) (x : Option Step × Machine) : Prop where
  registry : x.2.registry = before.registry
  checkpoints : x.2.checkpoints = before.checkpoints + if x.1 = some .checkpoint then 1 else 0

theorem tallied_checkpoint (same : m'.registers = m.registers) :
    m.Tallied (ending m'.checkpoint) :=
  ⟨congrArg Registers.registry same, congrArg (·.checkpoints + 1) same⟩

theorem tallied_raiseError (same : m'.registers = m.registers) (e : LocatedError) :
    m.Tallied (ending (m'.raiseError e)) := by
  have kept (above : List Frame) := (m'.registers_releaseAll above).trans same
  unfold raiseError
  split
  · exact tallied_checkpoint (kept _)
  · exact ⟨congrArg Registers.registry (kept _), congrArg Registers.checkpoints (kept _)⟩

theorem tallied_interrupt (same : m'.registers = m.registers) (signal : Signal) :
    m.Tallied (ending (m'.interrupt signal)) := by
  cases signal with
  | error e => exact tallied_raiseError same _
  | _ => exact ⟨congrArg Registers.registry same, congrArg (·.checkpoints + 1) same⟩

theorem tallied_turn (m : Machine) : m.Tallied m.turn := by
  rw [turn]
  split
  · rw [finish]
    split
    · exact tallied_raiseError rfl _
    · exact ⟨rfl, rfl⟩
  · next f below _ =>
    have same := Exec.discreet_advance f below m
    generalize Exec.advance f below m = x at same
    cases x with
    | error signal m' => exact tallied_interrupt same signal
    | ok tick m' =>
      cases tick with
      | internal => exact ⟨congrArg Registers.registry same, congrArg Registers.checkpoints same⟩
      | checkpoint => exact tallied_checkpoint same

theorem tallied_heed (m : Machine) : Tallied { m with control := .none } m.heed := by
  have signalled {x : EStateM.Result Signal Machine Unit}
      (same : (Exec.left x).registers = ({ m with control := .none } : Machine).registers) :
      Tallied { m with control := .none } (afterSignal x) := by
    cases x with
    | ok _ m' => exact ⟨congrArg Registers.registry same, congrArg Registers.checkpoints same⟩
    | error signal m' => exact tallied_interrupt same signal
  rw [heed]
  split
  · exact ⟨rfl, rfl⟩
  · exact ⟨rfl, rfl⟩
  · exact tallied_raiseError rfl _
  · exact signalled (Exec.discreet_leaveLoop _)
  · exact signalled (Exec.discreet_replaceCall _ _)

theorem tallied_pass (m : Machine) : m.Tallied m.pass := by
  by_cases calm : m.control = .none
  · rw [pass_of_calm calm]
    exact m.tallied_turn
  · rw [pass_of_control calm]
    exact ⟨m.tallied_heed.registry, m.tallied_heed.checkpoints⟩

theorem Proceeds.rests {R : Machine → Machine → Prop} (proceeds : m.Proceeds R s m')
    (calm : m.control = .none) : Rests m.pending (s, m') := by
  induction proceeds with
  | last turned _ =>
    have carries := carries_turn calm
    rw [turned] at carries
    exact carries
  | more turned _ _ ih =>
    have same := carries_turn calm
    rw [turned] at same
    rw [← pending_of_registers same]
    exact ih ((control_of_registers same).trans calm)

/-- A step does nothing if the machine is suspended. -/
theorem rests_step (m : Machine) :
    (m.control = .suspend ∧ m.step = (.suspended, m)) ∨ Rests m.pending m.step := by
  by_cases asleep : m.control = .suspend
  · exact .inl ⟨asleep, by rw [step, asleep]⟩
  · right
    have carries := carries_heed asleep
    cases stepsBy_step m with
    | last heeded _ =>
      rw [heeded] at carries
      exact carries
    | more heeded _ rest =>
      rw [heeded] at carries
      have rests := rest.rests (control_of_registers carries)
      rw [pending_of_registers carries] at rests
      exact rests

/-- An operation is outstanding after a step that has stopped for it, and stays so until a step
fails. -/
theorem pending_step_iff (recorded : m.control = .suspend → m.pending.isSome = true) :
    m.step.2.pending.isSome = true ↔ m.step.2.control = .suspend ∨
      (m.pending.isSome = true ∧ ∀ e, m.step.1 ≠ .failed e) := by
  rcases m.rests_step with ⟨asleep, waits⟩ | rests
  · rw [waits]
    exact iff_of_true (recorded asleep) (.inl asleep)
  · generalize m.pending = before at rests
    generalize m.step = after at rests
    cases rests with
    | pauses awake kept => simp [awake, kept]
    | stops asleep raised => simp [asleep, raised]
    | ends empty awake kept => simp [awake, kept]
    | fails empty awake cleared => simp [awake, cleared]

end Machine

/-! ### The calls of a host -/

/-- What a host can ask of a machine. -/
inductive HostCall where
  | load (tokens : List Token)
  | step
  | resume (result : Option Value)

namespace Machine

def serve (m : Machine) : HostCall → Machine
  | .load tokens => m.load tokens
  | .step => m.step.2
  | .resume result => m.resume result

def serveAll (m : Machine) (calls : List HostCall) : Machine := calls.foldl serve m

/-- One of the steps has stopped for an operation outside, and none after it has failed. -/
def Stopped (m : Machine) (calls : List HostCall) : Prop :=
  ∃ before after, calls = before ++ .step :: after ∧
    (m.serveAll (before ++ [.step])).control = .suspend ∧
    ∀ middle rest, after = middle ++ .step :: rest →
      ∀ e, (m.serveAll (before ++ .step :: middle)).step.1 ≠ .failed e

variable {m : Machine} {calls : List HostCall} {call : HostCall}

theorem serveAll_append_one (m : Machine) (calls : List HostCall) (call : HostCall) :
    m.serveAll (calls ++ [call]) = (m.serveAll calls).serve call := by
  rw [serveAll, List.foldl_append]
  rfl

theorem not_stopped_nil (m : Machine) : ¬ m.Stopped [] := by
  rintro ⟨before, after, split, _⟩
  cases before <;> cases split

/-- What one more call does to the history. -/
theorem stopped_append_one :
    m.Stopped (calls ++ [call]) ↔
      (call = .step ∧ (m.serveAll (calls ++ [.step])).control = .suspend) ∨
        (m.Stopped calls ∧ (call = .step → ∀ e, (m.serveAll calls).step.1 ≠ .failed e)) := by
  constructor
  · rintro ⟨before, after, split, asleep, sound⟩
    -- The step that stopped is the last call, or one of those before it.
    rcases List.eq_nil_or_concat after with rfl | ⟨after, last, rfl⟩
    · obtain ⟨rfl, same⟩ := List.append_inj' split rfl
      cases same
      exact .inl ⟨rfl, asleep⟩
    · have whole : calls ++ [call] = (before ++ .step :: after) ++ [last] := by simpa using split
      obtain ⟨rfl, same⟩ := List.append_inj' whole rfl
      cases same
      refine .inr ⟨⟨before, after, rfl, asleep, fun middle rest split' => ?_⟩, ?_⟩
      · exact sound middle (rest ++ [call]) (by rw [split']; simp)
      · rintro rfl
        exact sound after [] (by simp)
  · rintro (⟨rfl, asleep⟩ | ⟨⟨before, after, rfl, asleep, sound⟩, unfailed⟩)
    · exact ⟨calls, [], rfl, asleep, fun middle rest split => by cases middle <;> cases split⟩
    · refine ⟨before, after ++ [call], by simp, asleep, fun middle rest split => ?_⟩
      rcases List.eq_nil_or_concat rest with rfl | ⟨rest, last, rfl⟩
      · obtain ⟨rfl, same⟩ := List.append_inj' split rfl
        cases same
        exact unfailed rfl
      · have whole : after ++ [call] = (middle ++ .step :: rest) ++ [last] := by simpa using split
        obtain ⟨rfl, _⟩ := List.append_inj' whole rfl
        exact sound middle rest rfl

/-- An operation is outstanding if a step has stopped for one and none has failed since. -/
theorem pending_serveAll_iff (free : m.pending = none) (awake : m.control ≠ .suspend)
    (calls : List HostCall) :
    ((m.serveAll calls).pending.isSome = true ↔ m.Stopped calls) ∧
      ((m.serveAll calls).control = .suspend → (m.serveAll calls).pending.isSome = true) := by
  -- Steps of a suspended machine do nothing, so an operation has to be outstanding there already.
  induction calls using List.reverseRecOn with
  | nil =>
    have none : m.pending.isSome ≠ true := by simp [free]
    exact ⟨iff_of_false none m.not_stopped_nil, fun asleep => absurd asleep awake⟩
  | append_singleton calls call ih =>
    obtain ⟨stopped, recorded⟩ := ih
    rw [stopped_append_one, serveAll_append_one, serveAll_append_one, ← stopped]
    cases call with
    | load tokens => simp [serve, load]
    | resume result => simp [serve, resume]
    | step =>
      have outstanding := pending_step_iff recorded
      refine ⟨?_, fun asleep => outstanding.2 (.inl asleep)⟩
      rw [serve, outstanding]
      simp

end Machine

/-- A machine that has settled counts as running exactly if a step has stopped for an operation
outside and none has failed since, whether or not the host has resumed. -/
theorem settled_running_iff {m m' : Machine} (free : m.pending = none)
    (awake : m.control ≠ .suspend) (calls : List HostCall) :
    (∀ e, (m.serveAll calls).step = (.failed e, m') → m'.isRunning = false) ∧
      ((m.serveAll calls).step = (.done, m') → (m'.isRunning = true ↔ m.Stopped calls)) := by
  obtain ⟨outstanding, _⟩ := Machine.pending_serveAll_iff free awake calls
  have rests := (m.serveAll calls).rests_step
  refine ⟨fun e failed => ?_, fun done => ?_⟩
  · rw [failed] at rests
    rcases rests with ⟨_, waits⟩ | rests
    · cases waits
    · cases rests with
      | fails empty _ cleared => simp [Machine.isRunning, empty, cleared]
  · rw [done] at rests
    rcases rests with ⟨_, waits⟩ | rests
    · cases waits
    · cases rests with
      | ends empty _ kept =>
        rw [← outstanding, ← kept]
        simp [Machine.isRunning, empty]

/-- The machine when its program, which asks for the time, has stopped at its end. -/
def Machine.asking : Machine :=
  { Machine.hosting.load [] with
    control := .suspend
    pending := some ⟨"now", .ready (.value (.int 1)), none⟩
    checkpoints := 1 }

theorem Machine.step_load_now :
    (Machine.hosting.load [⟨.name "now", .none⟩]).step = (.checkpoint, Machine.asking) := by
  have raised : Exec.token ⟨.name "now", .none⟩ (Machine.hosting.load []) =
      .error (.await ⟨"now", .ready (.value (.int 1)), none⟩) (Machine.hosting.load []) :=
    (Exec.token_of_builtin rfl rfl rfl).trans (Exec.invokeOperation_of_error rfl)
  exact step_of_turn rfl (turn_of_token_error raised)

/-- Resuming leads to the end of the program. -/
theorem Machine.step_resume_asking :
    (Machine.asking.resume (some (.int 1))).step =
      (.done, { Machine.asking.resume (some (.int 1)) with frames := .empty }) := by
  have calm : (asking.resume (some (.int 1))).step = (asking.resume (some (.int 1))).proceed := rfl
  rw [calm, proceed_eq_turn]
  exact proceed_eq_turn { asking.resume (some (.int 1)) with frames := .empty }

/-- A host that has resumed finds the machine running at its end, and not running any more when
another program has failed. -/
theorem settled_running_iff_hosting :
    ∃ done failed e, ∃ calls : List HostCall,
      Machine.hosting.pending = none ∧ Machine.hosting.control ≠ .suspend ∧
      (Machine.hosting.serveAll calls).step = (.done, done) ∧ done.isRunning = true ∧
      Machine.hosting.Stopped calls ∧
      (Machine.hosting.serveAll (calls ++ [.load [⟨.name "later", .none⟩]])).step =
        (.failed e, failed) ∧ failed.isRunning = false := by
  let calls : List HostCall :=
    [.load [⟨.name "now", .none⟩], .step, .resume (some (.int 1))]
  let resumed := Machine.asking.resume (some (.int 1))
  have awake : Machine.hosting.control ≠ .suspend := Machine.awake_of_calm rfl
  have stepped := congrArg Prod.snd Machine.step_load_now
  have served : Machine.hosting.serveAll calls = resumed :=
    congrArg (fun m => Machine.resume m (some (.int 1))) stepped
  have served' : Machine.hosting.serveAll (calls ++ [.load [⟨.name "later", .none⟩]]) =
      resumed.load [⟨.name "later", .none⟩] := by
    rw [Machine.serveAll_append_one, served]
    rfl
  have ended : (Machine.hosting.serveAll calls).step =
      (.done, { resumed with frames := .empty }) := by
    rw [served]
    exact Machine.step_resume_asking
  have failed : (Machine.hosting.serveAll (calls ++ [.load [⟨.name "later", .none⟩]])).step =
      (.failed ⟨.unknownReference "later", some .none⟩, Machine.abort (resumed.load [])) := by
    rw [served']
    exact Machine.step_of_turn rfl rfl
  refine ⟨_, _, _, calls, rfl, awake, ended, rfl, ?_, failed, ?_⟩
  · exact ((settled_running_iff rfl awake calls).2 ended).1 rfl
  · exact (settled_running_iff rfl awake _).1 _ failed

/-- The operation has been answered and the program has come to its end, but the machine counts as
running. -/
theorem exists_settled_running :
    ∃ registry tokens v m₁ m₂, ((Machine.new registry).load tokens).step = (.checkpoint, m₁) ∧
      m₁.step = (.suspended, m₁) ∧ (m₁.resume (some v)).step = (.done, m₂) ∧
      m₂.isRunning = true :=
  ⟨_, _, _, _, _, Machine.step_load_now, rfl, Machine.step_resume_asking, rfl⟩

end Catena
