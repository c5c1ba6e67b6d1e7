import Catena.Proofs.Following

set_option autoImplicit false

/-!
Programs that are run one after the other on the same machine. When a program has been run to its
end, another one that is loaded then does what it does as the continuation of the first: the two
machines differ only in what lies ahead of them, and when the first program is through they do not
differ at all.
-/

namespace Catena

open Translation

namespace Machine

/-- The second machine has more of the program ahead of it, and is otherwise the same. -/
def Extended (more : List Token) (m n : Machine) : Prop :=
  ∃ own rest, verbatim.Mirrors [.program rest] [.program (rest ++ more)] own m n

/-- Where a step leads on the two machines, as long as the first one does not fail. -/
inductive Along (more : List Token) : Step × Machine → Step × Machine → Prop
  | both {s m n} : Extended more m n → Along more (s, m) (s, n)
  | through {m} : Along more (.done, m) (m.load more).proceed
  | failed {e m y} : Along more (.failed e, m) y

variable {more : List Token} {m n : Machine}

theorem Extended.frames_ne_nil (extended : Extended more m n) : m.frames.toList ≠ [] := by
  obtain ⟨own, rest, mirrors⟩ := extended
  simp [mirrors.frames]

/-- What a part of a step comes to, if the rest of the step is as `goesOn` says. -/
theorem Along.ofTurned {rest : List Token} {x y : Option Step × Machine}
    (turned : Turned verbatim [.program rest] [.program (rest ++ more)] x y)
    (goesOn : ∀ m n, x = (none, m) → Extended more m n → Along more m.proceed n.proceed) :
    Along more (continueWith x) (continueWith y) := by
  cases turned with
  | @both own s m n mirrors =>
    cases s with
    | some s => exact .both ⟨own, rest, mirrors⟩
    | none => exact goesOn m n rfl ⟨own, rest, mirrors⟩
  | @escapes own e m n mirrors passed =>
    have all : ∀ f ∈ m.frames.toList, f.attemptHeight? = none := by
      rw [mirrors.frames]
      exact List.forall_mem_append.2 ⟨passed, List.forall_mem_singleton.2 rfl⟩
    rw [raiseError_of_passed all]
    exact .failed

/-- The program is through: the one machine has nothing more to do, the other has `more`. -/
theorem Along.last {below : Stack Frame} (empty : below.toList = []) (calm : m.control = .none)
    (frames : n.frames = .ofList [.program more]) (same : n = { m with frames := n.frames }) :
    Along more ({ m with frames := below } : Machine).proceed n.proceed := by
  have loaded : n = ({ m with frames := below } : Machine).load more := by
    rw [same, frames, load, ← calm]
    rfl
  have top : below.pop? = none := Stack.pop?_eq_none_iff.2 empty
  have ended : ({ m with frames := below } : Machine).proceed =
      ({ m with frames := below } : Machine).finish := by
    rw [proceed_eq_turn, turn, top]
    rfl
  rw [ended, loaded, finish]
  split
  · rw [fail, raiseError_of_passed (by simp [empty])]
    exact .failed
  · exact .through

/-- Induction on the turns that are left of a step. -/
theorem turns_induction {motive : Machine → Prop}
    (turn : ∀ m, (∀ m₁, m.turn = (none, m₁) → motive m₁) → motive m) (m : Machine) : motive m := by
  have proceeds := m.proceeds_proceed
  generalize m.proceed.1 = s, m.proceed.2 = m' at proceeds
  induction proceeds with
  | last turned _ =>
    refine turn _ fun m₁ turned' => ?_
    rw [turned] at turned'
    cases turned'
  | more turned _ _ ih =>
    refine turn _ fun m₁ turned' => ?_
    rw [turned] at turned'
    cases turned'
    exact ih

theorem Extended.proceed (extended : Extended more m n) (running : Running m) :
    Along more m.proceed n.proceed := by
  induction m using turns_induction generalizing n with
  | turn m ih =>
    have goesOn (m₁ n₁ : Machine) (turned : m.turn = (none, m₁)) (extended : Extended more m₁ n₁) :
        Along more m₁.proceed n₁.proceed := by
      have goes := running.turn
      rw [turned] at goes
      exact ih m₁ turned extended goes
    obtain ⟨own, rest, mirrors⟩ := extended
    cases own with
    | cons f own =>
      rw [proceed_eq_turn, proceed_eq_turn n]
      exact Along.ofTurned (mirrors.turn rfl) goesOn
    | nil =>
      cases rest with
      | nil =>
        have turned : m.turn = (none, { m with frames := .empty }) := by
          rw [turn_of_frames (s := .empty) mirrors.frames]
          rfl
        obtain ⟨_, _, same⟩ := mirrors_verbatim_iff.1 mirrors
        rw [proceed_eq_turn, turned]
        have frames := congrArg Machine.frames same
        exact Along.last rfl running.control frames (same.trans (by rw [same]))
      | cons t rest =>
        have mirrors' : verbatim.Mirrors [.program rest] [.program (rest ++ more)] []
            { m with frames := .ofList [.program rest] }
            { n with frames := .ofList [.program (rest ++ more)] } :=
          { mirrors with depth := rfl, frames := rfl, frames' := rfl }
        have ends := (Follows.token t).thenPure Tick.checkpoint _ _ _ mirrors'
        have turned : Turned verbatim [.program rest] [.program (rest ++ more)] m.turn n.turn := by
          rw [turn_of_frames (s := .empty) mirrors.frames,
            turn_of_frames (s := .empty) mirrors.frames']
          exact Mirrors.afterAdvance (ends.rendered rfl)
        rw [proceed_eq_turn, proceed_eq_turn n]
        exact Along.ofTurned turned goesOn

theorem Extended.step (extended : Extended more m n) (aligned : Aligned m)
    (waiting : m.control = .suspend ∨ m.pending = none) : Along more m.step n.step := by
  obtain ⟨own, rest, mirrors⟩ := extended
  have goes := aligned.heed waiting
  have bare : Bare [.program rest] [.program (rest ++ more)] := .program rest (rest ++ more)
  rw [step_eq_heed, step_eq_heed n]
  refine Along.ofTurned (mirrors.heed (fun _ => .inl bare) fun _ _ => .inl bare) ?_
  intro m₁ n₁ heeded extended
  rw [heeded] at goes
  exact extended.proceed goes

theorem run_of_checkpoint {m' : Machine} (stepped : m.step = (.checkpoint, m')) (limit : Nat) :
    m.run (limit + 1) = m'.run limit := by
  rw [Machine.run, stepped]

/-- A run of the first machine to its end: from then on the second machine does what the first one
does with the rest of the program. -/
theorem Extended.run {limit : Nat} {m' : Machine} (extended : Extended more m n)
    (aligned : Aligned m) (waiting : m.control = .suspend ∨ m.pending = none)
    (ran : m.run limit = (some .done, m')) :
    ∃ made, ∀ k, n.run (made + (k + 1)) = (m'.load more).run (k + 1) := by
  induction limit generalizing m n with
  | zero => cases ran
  | succ limit ih =>
    have along := extended.step aligned waiting
    have kept := aligned.step waiting
    rw [Machine.run] at ran
    generalize m.step = x at along kept ran
    generalize stepped : n.step = y at along
    cases along with
    | failed => cases ran
    | through =>
      cases ran
      refine ⟨0, fun k => ?_⟩
      have same : n.step = (m'.load more).step := stepped
      rw [Nat.zero_add, Machine.run, Machine.run, same]
    | @both s m₁ n₁ extended =>
      cases s with
      | suspended => cases ran
      | failed e => cases ran
      | done => exact absurd (kept.idle rfl).1.frames extended.frames_ne_nil
      | checkpoint =>
        obtain ⟨made, continues⟩ := ih extended kept.aligned kept.waiting ran
        refine ⟨made + 1, fun k => ?_⟩
        rw [Nat.add_right_comm, run_of_checkpoint stepped]
        exact continues k

/-! ### Runs -/

/-- The machine makes steps until one does not end at a checkpoint. -/
def Stops (m : Machine) (result : Step) (m' : Machine) : Prop :=
  ∃ limit, m.run limit = (some result, m')

/-- The machine makes steps without an end. -/
def Diverges (m : Machine) : Prop := ∀ limit, (m.run limit).1 = none

theorem diverges_iff : m.Diverges ↔ ∀ result m', ¬ m.Stops result m' := by
  constructor
  · rintro diverges result m' ⟨limit, ran⟩
    have none := diverges limit
    rw [ran] at none
    cases none
  · intro never limit
    cases ran : m.run limit with
    | mk result m' =>
      cases result with
      | none => rfl
      | some result => exact absurd ⟨limit, ran⟩ (never result m')

theorem run_add {limit : Nat} {result : Step} {m' : Machine}
    (ran : m.run limit = (some result, m')) (k : Nat) : m.run (limit + k) = (some result, m') := by
  induction limit generalizing m with
  | zero => cases ran
  | succ limit ih =>
    rw [Nat.add_right_comm, Machine.run]
    rw [Machine.run] at ran
    generalize m.step = x at ran
    obtain ⟨s, m₁⟩ := x
    cases s with
    | checkpoint => exact ih ran
    | _ => exact ran

theorem Stops.unique {s s' : Step} {m₁ m₂ : Machine} (stops : m.Stops s m₁)
    (stops' : m.Stops s' m₂) : s' = s ∧ m₂ = m₁ := by
  obtain ⟨limit, ran⟩ := stops
  obtain ⟨limit', ran'⟩ := stops'
  have long := run_add ran limit'
  have long' := run_add ran' limit
  rw [Nat.add_comm, long] at long'
  cases long'
  exact ⟨rfl, rfl⟩

theorem stops_iff_of_run {made : Nat} (same : ∀ k, n.run (made + (k + 1)) = m.run (k + 1))
    (result : Step) (m' : Machine) : m.Stops result m' ↔ n.Stops result m' := by
  constructor
  · rintro ⟨limit, ran⟩
    cases limit with
    | zero => cases ran
    | succ k => exact ⟨made + (k + 1), (same k).trans ran⟩
  · rintro ⟨limit, ran⟩
    refine ⟨limit + 1, (same limit).symm.trans ?_⟩
    rw [Nat.add_left_comm]
    exact run_add ran (made + 1)

end Machine

theorem Machine.extended_load (m : Machine) (a b : List Token) :
    Extended b (m.load a) (m.load (a ++ b)) :=
  ⟨[], a, mirrors_verbatim_iff.2 ⟨rfl, rfl, rfl⟩⟩

/-- When a program has run to its end, a second program that is then loaded stops where the two of
them stop when they are loaded as one, with the same result and in the same state; and it runs on
without an end just when they do. -/
theorem stops_load_append {s s' : Machine} {a : List Token} (idle : s.Idle)
    (ran : (s.load a).Stops .done s') (b : List Token) :
    (∀ result m, (s'.load b).Stops result m ↔ (s.load (a ++ b)).Stops result m) ∧
      ((s'.load b).Diverges ↔ (s.load (a ++ b)).Diverges) := by
  obtain ⟨limit, ran⟩ := ran
  obtain ⟨aligned, waiting⟩ := (Machine.Loaded.program a).sound idle
  obtain ⟨made, same⟩ := (s.extended_load a b).run aligned waiting ran
  have stops := Machine.stops_iff_of_run same
  refine ⟨stops, ?_⟩
  simp only [Machine.diverges_iff, stops]

/-- The first program calls a closure, the second one adds to what it has left. -/
theorem stops_load_append_call :
    ∃ s', (Machine.knowing.load [⟨.name "f", .none⟩]).Stops .done s' ∧
      s'.operands.toList = [.int 1] ∧
      ∀ result m, (s'.load [⟨.int 2, .none⟩, ⟨.name "+", .none⟩]).Stops result m ↔
        (Machine.knowing.load
          [⟨.name "f", .none⟩, ⟨.int 2, .none⟩, ⟨.name "+", .none⟩]).Stops result m := by
  have idle : Machine.knowing.Idle := ⟨rfl, rfl, rfl, rfl, rfl, rfl⟩
  let m := Machine.knowing.load [⟨.name "f", .none⟩]
  have called : m.step = (.checkpoint, m.turn.2) := Machine.step_of_turn rfl rfl
  have pushed : m.turn.2.step = (.checkpoint, m.turn.2.turn.2) := Machine.step_of_turn rfl rfl
  let after : Machine := { Machine.knowing with
    operands := Operands.empty.push (.int 1), checkpoints := 2 }
  have through : m.turn.2.turn.2.Proceeds (fun _ _ => True) .done after :=
    .more rfl trivial (.more rfl trivial (.more rfl trivial (.last rfl trivial)))
  have ran : m.run 3 = (some .done, after) := by
    rw [Machine.run_of_checkpoint called, Machine.run_of_checkpoint pushed, Machine.run]
    have last : m.turn.2.turn.2.step = (.done, after) := through.proceed_eq
    rw [last]
  exact ⟨after, ⟨3, ran⟩, rfl, (stops_load_append idle ⟨3, ran⟩ _).1⟩

end Catena
