import Catena.Proofs.Catching
import Catena.Proofs.Interference
import Catena.Proofs.TailCall

set_option autoImplicit false

/-!
What a closure finds when it is entered. A call sets a floor at the height that is left when the
arguments have been taken, so the closure sees no operand. A tail call keeps the floor of the
closure that it replaces: of the operands under it none can be seen, but what the replaced closure
has left above it, except for the arguments, is there for the new one.
-/

namespace Catena

/-! ### Calls -/

namespace Exec

variable {α : Type} {m m' : Machine} {k : Nat}

/-- There are no more than `k` calls, unless the last thing that happened was a call. -/
def Enters (k : Nat) (x : EStateM.Result Signal Machine α) : Prop :=
  callsIn (left x).frames.toList ≤ k ∨
    ∃ c n a m', x = .ok a m' ∧ enter c n = .ok () m'

theorem Launched.enters {x : EStateM.Result Signal Machine α} (launched : Launched m x)
    (le : callsIn m.frames.toList ≤ k) : Enters k x := by
  cases launched with
  | worked adds plain =>
    left
    rw [adds.frames, callsIn_append, plain]
    omega
  | called _ _ entered => exact .inr ⟨_, _, _, _, rfl, entered⟩

/-- Dealing with a frame makes one call at most, and makes it last. -/
theorem enters_advance {f : Frame} {below : Stack Frame}
    (top : m.frames.toList = f :: below.toList) :
    Enters (callsIn m.frames.toList) (advance f below m) := by
  have lower : callsIn below.toList ≤ callsIn m.frames.toList := by
    rw [top, callsIn_cons]
    omega
  have program (tokens : List Token) :
      callsIn (below.push (.program tokens)).toList ≤ callsIn m.frames.toList := by
    rw [Stack.toList_push, callsIn_cons]
    exact lower
  cases advances_advance top with
  | launches m₁ base _ bases _ frames₁ _ _ _ _ launched =>
    refine launched.enters ?_
    rw [frames₁, callsIn_append, callsIn_of_isInner bases, Nat.zero_add]
    exact lower
  | collects t tokens _ collects =>
    left
    rw [collects.frames]
    exact program tokens
  | runs t tokens _ _ launched => exact launched.enters (program tokens)
  | leaves _ frames _ _ _ =>
    left
    rw [frames]
    exact lower
  | refuses _ same => exact .inl (Nat.le_of_eq (by rw [same]))

end Exec

/-- An act of `m` has ended with a call of `c` that was made at `n`, and has led to `m'`. -/
def Machine.Calls (m : Machine) (c : Closure Value) (n m' : Machine) : Prop :=
  ∃ said k, m.act = .goes said m' ∧ Exec.enter c n = .ok () { m' with checkpoints := k }

/-- A call takes as many operands as there are parameters. -/
theorem Exec.arguments_of_enter {c : Closure Value} {n m' : Machine}
    (entered : Exec.enter c n = .ok () m') :
    ∃ args, args.length = c.arity ∧ n.operands.toList = m'.operands.toList ++ args := by
  obtain ⟨m₁, bound, rfl⟩ := bound_of_enter entered
  exact (absorbs_of_bindParameters bound).arguments

/-! ### Tail calls -/

/-- A tail call has put `c` in the place of `d`, which is on the same floor, and `args` are what the
parameters of `c` have taken. -/
structure Machine.Replaces (c d : Closure Value) (floor : Nat) (args : List Value)
    (m m' : Machine) : Prop where
  frames : ∃ above below, m.frames.toList = above ++ .call d floor :: below ∧
    (∀ f ∈ above, f.callFloor? = none) ∧ m'.frames.toList = .body c.body :: .call c floor :: below
  arguments : args.length = c.arity
  operands : m.operands.toList = m'.operands.toList ++ args

namespace Machine

variable {m m' : Machine} {said : Option Step}

theorem Replaces.callsIn_eq {c d : Closure Value} {floor : Nat} {args : List Value}
    (replaces : m.Replaces c d floor args m') :
    callsIn m'.frames.toList = callsIn m.frames.toList := by
  obtain ⟨above, below, frames, passed, frames'⟩ := replaces.frames
  have none : callsIn above = 0 :=
    List.countP_eq_zero.2 fun f member => by
      rw [Frame.isCall_of_callFloor?_none (passed f member)]
      exact Bool.false_ne_true
  rw [frames, frames', callsIn_append, none, Nat.zero_add]
  rfl

/-- A signal that goes on leaves the frames to the next step. -/
theorem frames_of_signalled {n : Machine} {signal : Signal}
    (goes : n.signalled signal = .goes said m') : m'.frames = n.frames := by
  cases signal <;> cases goes <;> rfl

/-- A tail call that does not fail has put its closure in place. -/
theorem replaces_of_act {c : Closure Value} (control : m.control = .tailCall c)
    (goes : m.act = .goes said m') : ∃ d floor args, m.Replaces c d floor args m' := by
  rw [act] at goes
  simp only [control] at goes
  rcases Exec.replaceCall_cases { m with control := .none } c with
    ⟨_, ran⟩ |
    ⟨above, d, floor, below, frames, passed, ⟨_, _, ran, _⟩ | ⟨args, _, ran, after, took⟩⟩
  · rw [ran] at goes
    cases goes
  · rw [ran] at goes
    cases goes
  · rw [ran] at goes
    cases goes
    exact ⟨d, floor, args, ⟨above, below, frames, passed, after⟩, took.1, took.2⟩

/-- Wherever there is one call more, it has just been made. -/
theorem calls_of_act (goes : m.act = .goes said m')
    (more : callsIn m.frames.toList < callsIn m'.frames.toList) : ∃ c n, m.Calls c n m' := by
  have acted := goes
  rw [act] at goes
  cases control : m.control with
  | none =>
    simp only [control] at goes
    cases top : m.frames.pop? with
    | none =>
      simp only [top] at goes
      split at goes <;> cases goes
      exact absurd more (Nat.lt_irrefl _)
    | some r =>
      obtain ⟨f, below⟩ := r
      simp only [top] at goes
      have enters := Exec.enters_advance (Stack.pop?_eq_some_iff.1 top)
      generalize Exec.advance f below m = x at goes enters
      rcases enters with le | ⟨c, n, tick, after, rfl, entered⟩
      · have same : m'.frames = (Exec.left x).frames := by
          cases x with
          | error signal after => exact frames_of_signalled goes
          | ok tick after => cases tick <;> cases goes <;> rfl
        rw [same] at more
        exact absurd more (Nat.not_lt.2 le)
      · cases tick with
        | internal =>
          cases goes
          exact ⟨c, n, _, _, acted, entered⟩
        | checkpoint =>
          cases goes
          exact ⟨c, n, _, after.checkpoints, acted, entered⟩
  | suspend =>
    simp only [control] at goes
    cases goes
    exact absurd more (Nat.lt_irrefl _)
  | throw e =>
    simp only [control] at goes
    cases goes
  | «break» =>
    simp only [control] at goes
    have shorter := (Exec.leaveLoop_suffix { m with control := .none }).sublist
    have le := shorter.countP_le (p := Frame.isCall)
    generalize Exec.leaveLoop { m with control := .none } = x at goes le
    have same : m'.frames = (Exec.left x).frames := by
      cases x with
      | error signal after => exact frames_of_signalled goes
      | ok _ after =>
        cases goes
        rfl
    rw [same] at more
    exact absurd more (Nat.not_lt.2 le)
  | tailCall c =>
    obtain ⟨d, floor, args, replaces⟩ := replaces_of_act control acted
    rw [replaces.callsIn_eq] at more
    exact absurd more (Nat.lt_irrefl _)

end Machine

/-! ### What can be seen -/

/-- At every moment of a run on an idle machine: a closure that has just been called sees no
operand. One that has been put in the place of another sees exactly what the other has left above
their floor, except for the arguments, and so nothing if there was nothing else. -/
theorem entered_sees {m₀ m₁ m m' : Machine} {said : Option Step} (idle : m₀.Idle)
    (loaded : m₀.Loaded m₁) (reaches : Moment.Reaches (.running m₁) (.running m))
    (goes : m.act = .goes said m') :
    (callsIn m.frames.toList < callsIn m'.frames.toList →
      ∃ c n below args, m.Calls c n m' ∧
        m'.frames.toList = .body c.body :: .call c m'.operands.floor :: below ∧
        args.length = c.arity ∧ n.operands.toList = m'.operands.toList ++ args ∧
        m'.operands.accessible = 0) ∧
    ∀ c, m.control = .tailCall c →
      ∃ d floor args, m.Replaces c d floor args m' ∧ m'.operands.floor = floor ∧
        floor + m'.operands.accessible + c.arity = m.operands.count := by
  have sound : (Moment.running m').Sound := by
    have next := Moment.Next.act m
    rw [goes] at next
    exact Moment.Reaches.sound (.tail reaches next) (loaded.sound idle)
  constructor
  · intro more
    obtain ⟨c, n, calls⟩ := Machine.calls_of_act goes more
    have ⟨_, _, _, entered⟩ := calls
    obtain ⟨args, arguments, operands⟩ := Exec.arguments_of_enter entered
    obtain ⟨frames, ⟨floors, held⟩, _⟩ := Exec.enter_eq_ok entered
    have floor : m'.operands.floor = m'.operands.count := by
      rw [Operands.floor, show m'.operands.floors = _ from held]
      rfl
    refine ⟨c, n, n.frames.toList, args, calls, ?_, arguments, operands, ?_⟩
    · rw [floor]
      exact frames
    · rw [Operands.accessible, floor, Nat.sub_self]
  · intro c control
    obtain ⟨d, floor, args, replaces⟩ := Machine.replaces_of_act control goes
    obtain ⟨above, below, _, _, frames⟩ := replaces.frames
    have floors := sound.1.floors
    have covered := sound.1.covered
    rw [frames] at floors covered
    have held : m'.operands.floor = floor := by
      rw [Operands.floor, floors]
      rfl
    have reach : floor ≤ m'.operands.count := covered
    have lengths := congrArg List.length replaces.operands
    rw [List.length_append, Operands.length_toList, Operands.length_toList, replaces.arguments]
      at lengths
    refine ⟨d, floor, args, replaces, held, ?_⟩
    rw [Operands.accessible, held]
    omega

/-! ### A closure that leaves operands to another -/

/-- A closure that counts what it sees. -/
def Closure.counting : Closure Value :=
  ⟨0, some "f", [.op (.primitive .depth) .none], none, .empty⟩

/-- A closure that ends with a tail call while two operands are left. -/
def Closure.leaving : Closure Value :=
  ⟨1, some "g", [.int 1, .int 2, .closure .counting, .op (.primitive .tailCall) .none], none,
    .empty⟩

/-- A machine that knows this closure and has an operand. -/
def Machine.leaving : Machine :=
  { registry := .standard
    operands := ⟨.ofList [.int 7], []⟩
    scopes := ⟨⟨[("g", .closure .leaving)]⟩, []⟩
    nextId := 2 }

theorem Machine.idle_leaving : Machine.leaving.Idle := ⟨rfl, rfl, rfl, rfl, rfl, rfl⟩

/-- The machine when the closure has made its tail call. -/
def Machine.leaving.signalled : Machine :=
  { Machine.leaving with
    operands := ⟨.ofList [.int 2, .int 1, .int 7], [1]⟩
    scopes := Machine.leaving.scopes.enter Closure.leaving.activation
    frames := .ofList [.body [], .call Closure.leaving 1, .body []]
    control := .tailCall .counting
    checkpoints := 5 }

theorem Machine.course_leaving :
    (Machine.leaving.loadValue (.ref "g" .none)).Course Machine.leaving.signalled := by
  let called := (Machine.leaving.loadValue (.ref "g" .none)).turn.2
  let pushed := called.turn.2.turn.2.turn.2
  have first : (Machine.leaving.loadValue (.ref "g" .none)).Course called :=
    .step (s := .checkpoint) .start (step_of_turn rfl rfl) (by decide)
  have second : (Machine.leaving.loadValue (.ref "g" .none)).Course called.turn.2.turn.2 :=
    .step (s := .checkpoint)
      (.step (s := .checkpoint) first (step_of_turn rfl rfl) (by decide))
      (step_of_turn rfl rfl) (by decide)
  have course : (Machine.leaving.loadValue (.ref "g" .none)).Course pushed :=
    .step (s := .checkpoint) second (step_of_turn rfl rfl) (by decide)
  have signals : Exec.operation (.primitive .tailCall)
      { pushed with frames := Machine.leaving.signalled.frames } =
      .error (.tailCall .counting)
        { Machine.leaving.signalled with control := .none, checkpoints := 4 } :=
    rfl
  have raised : pushed.turn = (some .checkpoint, Machine.leaving.signalled) :=
    turn_of_signal (m := pushed) rfl signals
  exact .step course (step_of_turn rfl raised) (by decide)

/-- The closure that is called does not see the operand of its caller; the one in its place sees the
two operands that it has left. -/
theorem entered_sees_left :
    ∃ m' n', (Machine.leaving.loadValue (.ref "g" .none)).act = .goes (some .checkpoint) m' ∧
      m'.operands.toList = [.int 7] ∧ m'.operands.accessible = 0 ∧
      Machine.leaving.signalled.act = .goes none n' ∧
      n'.operands.toList = [.int 7, .int 1, .int 2] ∧ n'.operands.accessible = 2 := by
  have started := (Machine.Loaded.value (.ref "g" .none)).sound Machine.idle_leaving
  have called := (entered_sees Machine.idle_leaving (.value (.ref "g" .none)) .refl rfl).1
    (by decide)
  have replaced := (entered_sees Machine.idle_leaving (.value (.ref "g" .none))
    (Machine.course_leaving.reaches started) rfl).2 .counting rfl
  obtain ⟨_, _, _, _, _, _, _, _, nothing⟩ := called
  obtain ⟨_, _, _, _, rfl, seen⟩ := replaced
  refine ⟨_, _, rfl, rfl, nothing, rfl, rfl, ?_⟩
  exact Nat.add_left_cancel (n := 1) seen

/-- A closure without parameters that a tail call puts in the place of another may see operands. -/
theorem exists_entered_seeing :
    ∃ m m' : Machine, (Machine.leaving.loadValue (.ref "g" .none)).Course m ∧
      m.control = .tailCall .counting ∧ m.act = .goes none m' ∧
      m'.frames.toList = [.body Closure.counting.body, .call .counting 1, .body []] ∧
      Closure.counting.arity = 0 ∧ m'.operands.accessible = 2 :=
  ⟨_, _, Machine.course_leaving, rfl, rfl, rfl, rfl, rfl⟩

end Catena
