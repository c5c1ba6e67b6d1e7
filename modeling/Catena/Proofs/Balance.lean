import Catena.Proofs.Turn

set_option autoImplicit false

/-!
Balance of activations. Floors and saved scopes are acquired when closures are entered and fields
updated, and released when these return, when they are left by a break or an error and when they are
replaced. Whatever a program does, the floors are those of the frames that hold one, each at least
as high as those below it, and there is one saved scope for each running closure. A run that has
ended has left nothing behind.
-/

namespace Catena

/-! ### Runs -/

/-- A machine without work. -/
structure Machine.Idle (m : Machine) : Prop where
  frames : m.frames.toList = []
  floors : m.operands.floors = []
  saved : m.scopes.saved = []
  pending : m.pending = none
  openQuotes : m.openQuotes = 0
  openParams : m.openParams = 0

/-- Takes the operation that the machine waits for and goes on with its answer. -/
def Machine.answer (m : Machine) : Reply Value → Machine
  | .value v => resume { m with pending := none } (some v)
  | .nothing => resume { m with pending := none } none
  | .failure e => failPending { m with pending := none } e

theorem Alike.answer {A B : Ground} {p : Pairing} {own own' : List Frame} {m n : Machine}
    (alike : Alike A B p own own' m n) {r s : Reply Value} (same : r.Same p.rel s) :
    Alike A B p own own' (m.answer r) (n.answer s) := by
  cases same with
  | value vw =>
    exact (alike.setOperands (alike.operands.push vw) rfl rfl).setControl .none nofun
  | nothing => exact alike.setControl .none nofun
  | @failure e =>
    change Alike A B p own own' { m with control := .throw (m.locate e), pending := none }
      { n with control := .throw (n.locate e), pending := none }
    rw [alike.locate e]
    exact alike.setControl .throw nofun

/-- The machines that come from a machine by steps, each suspension being answered. -/
inductive Machine.Course (m : Machine) : Machine → Prop
  | start : Course m m
  | step {m₁ s m₂} : Course m m₁ → m₁.step = (s, m₂) → s ≠ .suspended → Course m m₂
  | answer {m₁ m₂} (reply : Reply Value) : Course m m₁ → m₁.step = (.suspended, m₂) →
      Course m (m₂.answer reply)

theorem Machine.Course.preserves {P : Machine → Prop} {m m' : Machine} (course : m.Course m')
    (heed : ∀ m : Machine, P m → P m.heed.2) (turn : ∀ m : Machine, P m → P m.turn.2)
    (answer : ∀ (m : Machine) (reply : Reply Value), P m → P (m.answer reply)) (before : P m) :
    P m' := by
  induction course with
  | start => exact before
  | step _ stepped _ ih =>
    have after := step_preserves heed turn ih
    rwa [stepped] at after
  | answer reply _ stepped ih =>
    have after := step_preserves heed turn ih
    rw [stepped] at after
    exact answer _ reply after

/-- A machine that has been given something to do. -/
inductive Machine.Loaded (m : Machine) : Machine → Prop
  | program (tokens : List Token) : Loaded m (m.load tokens)
  | value (v : Value) : Loaded m (m.loadValue v)

/-! ### Balance -/

/-- Frames, floors and scopes belong together. All of them are listed from the top. -/
structure Balanced (m : Machine) : Prop where
  floors : m.operands.floors = floorsOf m.frames.toList
  ordered : m.operands.floors.Pairwise (· ≥ ·)
  covered : ∀ floor ∈ m.operands.floors, floor ≤ m.operands.count
  attempts : ∀ above height below, m.frames.toList = above ++ .attempt height :: below →
    ∀ floor ∈ floorsOf below, floor ≤ height
  saved : m.scopes.depth = callsIn m.frames.toList

theorem Layered.le_floorAbove {base : Nat} {frames : List Frame} (layered : Layered base frames) :
    ∀ floor ∈ floorsOf frames, floor ≤ floorAbove base frames := by
  induction frames with
  | nil => exact List.forall_mem_nil _
  | cons frame below ih =>
    intro floor member
    rw [floorsOf_cons] at member
    rcases List.mem_append.1 member with here | lower
    · rw [floorAbove_cons, Option.mem_toList.1 here]
      exact Nat.le_refl _
    · exact Nat.le_trans (ih layered.2 floor lower) layered.floorAbove_le

theorem Layered.pairwise {base : Nat} {frames : List Frame} (layered : Layered base frames) :
    (floorsOf frames).Pairwise (· ≥ ·) := by
  induction frames with
  | nil => exact .nil
  | cons frame below ih =>
    rw [floorsOf_cons]
    cases holds : frame.floor? with
    | none => exact ih layered.2
    | some floor =>
      refine .cons (fun lower member => ?_) (ih layered.2)
      have above := layered.1 floor (Frame.mark?_of_floor? holds)
      exact Nat.le_trans (layered.2.le_floorAbove lower member) above

def Ground.empty : Ground := ⟨[], [], [], [], 0, rfl, none⟩

/-- The invariant behind balance, as the relation to itself above an empty ground has it. -/
structure Aligned (m : Machine) : Prop where
  floors : m.operands.floors = floorsOf m.frames.toList
  layered : Layered 0 m.frames.toList
  covered : floorAbove 0 m.frames.toList ≤ m.operands.count
  saved : m.scopes.saved.length = callsIn m.frames.toList

theorem Alike.aligned {p : Pairing} {own own' : List Frame} {m n : Machine}
    (alike : Alike .empty .empty p own own' m n) : Aligned m := by
  have frames : m.frames.toList = own := by simpa [Ground.empty] using alike.frames
  obtain ⟨u, _, saved, _, _, depth⟩ := alike.saved
  subst frames
  refine ⟨?_, alike.layered, alike.covered, ?_⟩
  · simpa [Ground.empty] using alike.floors
  · simpa [Ground.empty, depth] using congrArg List.length saved

namespace Aligned

variable {m : Machine}

theorem alike (aligned : Aligned m) :
    Alike .empty .empty (.self m.nextId) m.frames.toList m.frames.toList m m where
  frames := (List.append_nil _).symm
  frames' := (List.append_nil _).symm
  same := List.forall₂_same.2 fun f _ => f.same_self fun _ => rfl
  floors := aligned.floors.trans (List.append_nil _).symm
  floors' := aligned.floors.trans (List.append_nil _).symm
  layered := aligned.layered
  covered := aligned.covered
  items := ⟨m.operands.items.toList, m.operands.items.toList, (List.append_nil _).symm,
    (List.append_nil _).symm, List.forall₂_same.2 fun v _ => v.same_self fun _ => rfl⟩
  height := rfl
  saved := ⟨m.scopes.saved, m.scopes.saved, (List.append_nil _).symm, (List.append_nil _).symm,
    List.forall₂_same.2 fun s _ => s.same_self fun _ => rfl, aligned.saved⟩
  entering := rfl
  active := m.scopes.active.same_self fun _ => rfl
  registers := m.registers_same fun _ => rfl
  openQuotes := rfl
  openParams := rfl
  origin := rfl
  nextId := rfl
  nextId' := rfl
  codeOnly := nofun

theorem balanced (aligned : Aligned m) : Balanced m where
  floors := aligned.floors
  ordered := by
    rw [aligned.floors]
    exact aligned.layered.pairwise
  covered floor member := by
    rw [aligned.floors] at member
    exact Nat.le_trans (aligned.layered.le_floorAbove floor member) aligned.covered
  attempts above height below frames floor member := by
    have layered := aligned.layered
    rw [frames] at layered
    obtain ⟨lower, _⟩ := layered.of_append
    exact Nat.le_trans (lower.2.le_floorAbove floor member) (lower.1 height rfl)
  saved := aligned.saved

/-! ### Giving up -/

/-- Giving up all frames leaves no floor and no saved scope. -/
theorem releaseAll (aligned : Aligned m) :
    Aligned { m.releaseAll m.frames.toList with frames := .empty } := by
  have alike := aligned.alike
  rw [← List.append_nil m.frames.toList] at alike
  have all : Alike .empty .empty (.self m.nextId) [] [] _ _ :=
    alike.releaseAll aligned.alike.same (s := .empty) (t := .empty) rfl rfl
  exact all.aligned

theorem abort (aligned : Aligned m) : m.abort.Idle where
  frames := rfl
  floors := aligned.releaseAll.floors
  saved := List.eq_nil_of_length_eq_zero aligned.releaseAll.saved
  pending := rfl
  openQuotes := rfl
  openParams := rfl

end Aligned

theorem Machine.Idle.aligned {m : Machine} (idle : m.Idle) : Aligned m where
  floors := by rw [idle.floors, idle.frames]; rfl
  layered := by rw [idle.frames]; trivial
  covered := by rw [idle.frames]; exact Nat.zero_le _
  saved := by rw [idle.saved, idle.frames]; rfl

theorem Machine.raiseError_of_passed {m : Machine}
    (passed : ∀ f ∈ m.frames.toList, f.attemptHeight? = none) (e : LocatedError) :
    m.raiseError e = (.failed e, m.abort) := by
  rw [Machine.raiseError, Stack.split?_eq_none passed]

theorem StepAlike.aligned {p : Pairing} {x y : Step × Machine}
    (step : StepAlike .empty .empty p x y) : Aligned x.2 := by
  cases step with
  | both _ alike => exact alike.aligned
  | @escapes q own own' e m n _ alike passed _ =>
    have frames : m.frames.toList = own := by simpa [Ground.empty] using alike.frames
    subst frames
    rw [Machine.raiseError_of_passed passed]
    exact alike.aligned.abort.aligned

/-! ### Steps -/

def Step.isFinal : Step → Bool
  | .done | .failed _ => true
  | _ => false

/-- What holds after a step; `waiting` is what answers an operation outside. -/
structure Kept (x : Step × Machine) : Prop where
  aligned : Aligned x.2
  waiting : x.2.control = .suspend ∨ x.2.pending = none
  idle : x.1.isFinal = true → x.2.Idle ∧ x.2.control = .none

/-- What holds between the turns of a step. -/
structure Running (m : Machine) : Prop where
  aligned : Aligned m
  control : m.control = .none
  pending : m.pending = none

variable {m : Machine}

theorem Aligned.kept {s : Step} (aligned : Aligned m)
    (waiting : m.control = .suspend ∨ m.pending = none) (goesOn : s.isFinal = false) :
    Kept (s, m) :=
  ⟨aligned, waiting, fun final => absurd (goesOn.symm.trans final) Bool.false_ne_true⟩

theorem Aligned.raiseError (aligned : Aligned m) (pending : m.pending = none) (e : LocatedError) :
    Kept (m.raiseError e) := by
  have step := (aligned.alike.raiseError e).aligned
  rw [Machine.raiseError] at step ⊢
  cases found : m.frames.split? Frame.attemptHeight? with
  | none => exact ⟨aligned.abort.aligned, .inr rfl, fun _ => ⟨aligned.abort, rfl⟩⟩
  | some r =>
    obtain ⟨above, height, below⟩ := r
    rw [found] at step
    have kept := (congrArg Registers.pending (m.registers_releaseAll above)).trans pending
    exact step.kept (.inr kept) rfl

theorem Running.interrupt (running : Running m) (signal : Signal) : Kept (m.interrupt signal) := by
  have step := (running.aligned.alike.interrupt (signal.same_self fun _ => rfl)).aligned
  cases signal with
  | error e => exact running.aligned.raiseError running.pending _
  | await pending => exact step.kept (.inl rfl) rfl
  | «break» => exact step.kept (.inr running.pending) rfl
  | tailCall c => exact step.kept (.inr running.pending) rfl

theorem Running.of_registers (running : Running m) {m' : Machine} (aligned : Aligned m')
    (same : m'.registers = m.registers) : Running m' :=
  ⟨aligned, (congrArg Registers.control same).trans running.control,
    (congrArg Registers.pending same).trans running.pending⟩

theorem Running.finish (running : Running m) (empty : m.frames.toList = []) : Kept m.finish := by
  rw [Machine.finish]
  by_cases collecting : m.isCollecting = true
  · rw [if_pos collecting]
    exact running.aligned.raiseError running.pending _
  · rw [if_neg collecting]
    simp only [Machine.isCollecting, Bool.or_eq_true, decide_eq_true_eq, not_or, Nat.not_lt,
      Nat.le_zero] at collecting
    have floors := running.aligned.floors
    have saved := running.aligned.saved
    rw [empty] at floors saved
    exact ⟨running.aligned, .inr running.pending, fun _ => ⟨⟨empty, floors,
      List.eq_nil_of_length_eq_zero saved, running.pending, collecting.1, collecting.2⟩,
      running.control⟩⟩

/-- After one part of a step, the step has ended well or goes on. -/
def Goes : Option Step × Machine → Prop
  | (none, m) => Running m
  | (some s, m) => Kept (s, m)

section

variable (running : Running m)
include running

theorem Running.of_ends {α : Type} {V : Pairing → α → α → Prop} {p : Pairing}
    {x : EStateM.Result Signal Machine α}
    (ends : EndAlike .empty .empty p V m.registers m.registers x x) : Running (Exec.left x) := by
  cases ends with
  | refused depths => exact absurd rfl depths
  | ok _ _ alike same => exact running.of_registers alike.aligned same
  | error _ _ alike same => exact running.of_registers alike.aligned same

theorem Running.advance {frame : Frame} {below : Stack Frame}
    (top : m.frames.pop? = some (frame, below)) :
    Running (Exec.left (Exec.advance frame below m)) := by
  have frames := Stack.pop?_eq_some_iff.1 top
  have alike := running.aligned.alike
  rw [frames] at alike
  have left : below.toList = below.toList ++ Ground.empty.frames := (List.append_nil _).symm
  exact running.of_ends (Parallel.advance alike left left)

theorem Running.leaveLoop : Running (Exec.left (Exec.leaveLoop m)) := by
  by_cases edge : ∀ f ∈ m.frames.toList, f.loopEdge? = none
  · rw [Exec.leaveLoop_of_passed edge]
    exact running.of_registers running.aligned.releaseAll (m.registers_releaseAll m.frames.toList)
  · exact running.of_ends (running.aligned.alike.leaveLoop edge)

theorem Running.replaceCall (target : Closure Value) :
    Running (Exec.left (Exec.replaceCall target m)) := by
  by_cases call : ∀ f ∈ m.frames.toList, f.callFloor? = none
  · rw [Exec.replaceCall_of_passed call]
    exact running
  · exact running.of_ends (running.aligned.alike.replaceCall (target.same_self fun _ => rfl) call)

theorem Running.turn : Goes m.turn := by
  rw [Machine.turn]
  cases top : m.frames.pop? with
  | none => exact running.finish (Stack.pop?_eq_none_iff.1 top)
  | some r =>
    obtain ⟨frame, below⟩ := r
    have after := running.advance top
    simp only
    generalize Exec.advance frame below m = x at after
    cases x with
    | error signal m' => exact Running.interrupt after signal
    | ok tick m' =>
      cases tick with
      | internal => exact after
      | checkpoint => exact after.aligned.alike.checkpoint.aligned.kept (.inr after.pending) rfl

theorem Running.proceeds {R : Machine → Machine → Prop} {s : Step} {m' : Machine}
    (proceeds : m.Proceeds R s m') : Kept (s, m') := by
  induction proceeds with
  | last turned _ =>
    have goes := running.turn
    rw [turned] at goes
    exact goes
  | more turned _ _ ih =>
    have goes := running.turn
    rw [turned] at goes
    exact ih goes

end

theorem Running.afterSignal {x : EStateM.Result Signal Machine Unit}
    (running : Running (Exec.left x)) : Goes (Machine.afterSignal x) := by
  cases x with
  | ok _ m' => exact running
  | error signal m' => exact Running.interrupt running signal

theorem Aligned.calm (aligned : Aligned m) (waiting : m.control = .suspend ∨ m.pending = none)
    (awake : m.control ≠ .suspend) : Running { m with control := .none } :=
  ⟨⟨aligned.floors, aligned.layered, aligned.covered, aligned.saved⟩, rfl,
    waiting.resolve_left awake⟩

theorem Aligned.heed (aligned : Aligned m) (waiting : m.control = .suspend ∨ m.pending = none) :
    Goes m.heed := by
  have calm := aligned.calm waiting
  rw [Machine.heed]
  cases control : m.control with
  | none => exact ⟨aligned, control, waiting.resolve_left (by simp [control])⟩
  | suspend => exact aligned.kept (.inl control) rfl
  | throw e =>
    have running := calm (by simp [control])
    exact running.aligned.raiseError running.pending e
  | «break» => exact (calm (by simp [control])).leaveLoop.afterSignal
  | tailCall target => exact ((calm (by simp [control])).replaceCall target).afterSignal

theorem Aligned.step (aligned : Aligned m) (waiting : m.control = .suspend ∨ m.pending = none) :
    Kept m.step := by
  have goes := aligned.heed waiting
  rw [Machine.step_eq_heed]
  generalize m.heed = x at goes
  obtain ⟨s | s, m'⟩ := x
  · exact Running.proceeds goes m'.proceeds_proceed
  · exact goes

theorem Aligned.answer (aligned : Aligned m) (reply : Reply Value) : Aligned (m.answer reply) := by
  obtain ⟨floors, layered, covered, saved⟩ := aligned
  cases reply with
  | value v => exact ⟨floors, layered, Nat.le_succ_of_le covered, saved⟩
  | nothing => exact ⟨floors, layered, covered, saved⟩
  | failure e => exact ⟨floors, layered, covered, saved⟩

theorem Machine.pending_answer (m : Machine) (reply : Reply Value) :
    (m.answer reply).pending = none := by
  cases reply <;> rfl

theorem Machine.Course.sound {m₁ m : Machine} (course : m₁.Course m)
    (start : Aligned m₁ ∧ (m₁.control = .suspend ∨ m₁.pending = none)) :
    Aligned m ∧ (m.control = .suspend ∨ m.pending = none) := by
  induction course with
  | start => exact start
  | step _ stepped _ ih =>
    have kept := ih.1.step ih.2
    rw [stepped] at kept
    exact ⟨kept.aligned, kept.waiting⟩
  | @answer m₁ m₂ reply _ stepped ih =>
    have kept := ih.1.step ih.2
    rw [stepped] at kept
    exact ⟨kept.aligned.answer reply, .inr (m₂.pending_answer reply)⟩

theorem Machine.Loaded.sound {m₀ m₁ : Machine} (loaded : m₀.Loaded m₁) (idle : m₀.Idle) :
    Aligned m₁ ∧ (m₁.control = .suspend ∨ m₁.pending = none) := by
  cases loaded with
  | program tokens =>
    exact ⟨⟨idle.floors, ⟨nofun, trivial⟩, Nat.zero_le _,
      by rw [Machine.load, idle.saved]; rfl⟩, .inr idle.pending⟩
  | value v =>
    exact ⟨⟨idle.floors, ⟨nofun, trivial⟩, Nat.zero_le _,
      by rw [Machine.loadValue, idle.saved]; rfl⟩, .inr idle.pending⟩

/-- In every state of a run of a program or a value on an idle machine, frames, floors and scopes
are in balance, and a step that ends the run leaves the machine idle. -/
theorem course_balanced {m₀ m₁ m : Machine} (idle : m₀.Idle) (loaded : m₀.Loaded m₁)
    (course : m₁.Course m) :
    Balanced m ∧ ∀ s m', m.step = (s, m') → (s = .done ∨ ∃ e, s = .failed e) →
      m'.Idle ∧ m'.control = .none := by
  obtain ⟨aligned, waiting⟩ := course.sound (loaded.sound idle)
  refine ⟨aligned.balanced, fun s m' stepped final => ?_⟩
  have kept := aligned.step waiting
  rw [stepped] at kept
  rcases final with rfl | ⟨e, rfl⟩ <;> exact kept.idle rfl

/-- A machine on which `f` is a closure that pushes a number. -/
def Machine.knowing : Machine :=
  { registry := .standard
    scopes := ⟨⟨[("f", .closure ⟨0, some "f", [.int 1], none, .empty⟩)]⟩, []⟩
    nextId := 1 }

/-- Inside the closure there are a floor and a saved scope. -/
theorem course_balanced_call :
    ∃ m, (Machine.knowing.load [⟨.name "f", .none⟩]).Course m ∧ floorsOf m.frames.toList = [0] ∧
      callsIn m.frames.toList = 1 ∧ Balanced m := by
  have idle : Machine.knowing.Idle := ⟨rfl, rfl, rfl, rfl, rfl, rfl⟩
  have course : (Machine.knowing.load [⟨.name "f", .none⟩]).Course
      (Machine.knowing.load [⟨.name "f", .none⟩]).turn.2 :=
    .step (s := .checkpoint) .start (Machine.step_of_turn rfl rfl) (by decide)
  exact ⟨_, course, rfl, rfl, (course_balanced idle (.program _) course).1⟩

end Catena
