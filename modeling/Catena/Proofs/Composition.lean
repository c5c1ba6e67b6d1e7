import Catena.Proofs.Following
import Catena.Proofs.Interference

set_option autoImplicit false

/-!
The code of quotations put one behind the other. As long as the body of a quotation is on the
frames, the machine does not look at what the body holds beyond the next element. So with more code
behind it the machine makes the same steps, and arrives at that code with the same state.
-/

namespace Catena

open Translation

namespace Machine

/-- The frames above a position, which is counted from the bottom. -/
def framesAbove (m : Machine) (i : Nat) : List Frame :=
  m.frames.toList.take (m.frames.size - (i + 1))

/-- The body at a position is not removed: it is still there, and no tail call has gone past it,
which might have put another body into its place. -/
structure Remains (i : Nat) (m m' : Machine) : Prop where
  before : ∃ code, m.frameAt? i = some (.body code)
  after : ∃ code, m'.frameAt? i = some (.body code)
  stopped : ∀ c, m.control = .tailCall c → ∃ f ∈ m.framesAbove i, f.callFloor? ≠ none

theorem framesAbove_of_append {m : Machine} {above below : List Frame} {f : Frame}
    (frames : m.frames.toList = above ++ f :: below) : m.framesAbove below.length = above := by
  rw [framesAbove, ← m.frames.length_eq, frames]
  simp

/-- The second machine has `more` behind the code of the body above the frames `below`, and is
otherwise the same. -/
def Longer (more : List Value) (below : List Frame) (m n : Machine) : Prop :=
  ∃ own code, verbatim.Mirrors (.body code :: below) (.body (code ++ more) :: below) own m n

variable {more : List Value} {below : List Frame} {m n m' : Machine} {s : Step}

section

variable (longer : Longer more below m n)
include longer

theorem Longer.frameAt? : ∃ code, n.frameAt? below.length = some (.body code) := by
  obtain ⟨own, code, mirrors⟩ := longer
  exact ⟨code ++ more, frameAt?_of_append mirrors.frames'⟩

theorem Longer.framesAbove : n.framesAbove below.length = m.framesAbove below.length := by
  obtain ⟨own, code, mirrors⟩ := longer
  rw [framesAbove_of_append mirrors.frames, framesAbove_of_append mirrors.frames']
  simp

theorem Longer.control : n.control = m.control := by
  obtain ⟨own, code, mirrors⟩ := longer
  rw [mirrors.control, control_verbatim]

theorem Longer.remains {n' : Machine} (longer' : Longer more below m' n')
    (remains : Remains below.length m m') : Remains below.length n n' where
  before := longer.frameAt?
  after := longer'.frameAt?
  stopped := by
    rw [longer.control, longer.framesAbove]
    exact remains.stopped

end

/-- What a part of a step comes to, unless it has taken the body away. -/
theorem Longer.ofTurned {code : List Value} {x : Option Step} {y : Option Step × Machine}
    (turned : Turned verbatim (.body code :: below) (.body (code ++ more) :: below) (x, m') y)
    (remains : Remains below.length m m') : ∃ n', y = (x, n') ∧ Longer more below m' n' := by
  obtain ⟨rest, found⟩ := remains.after
  generalize ran : (x, m') = z at turned
  cases turned with
  | @both own s _ n' mirrors =>
    cases ran
    exact ⟨n', rfl, own, code, mirrors⟩
  | @escapes own e m₁ n₁ mirrors passed =>
    have frames : m₁.frames.toList = (own ++ [.body code]) ++ below := by
      rw [mirrors.frames, List.append_assoc]
      rfl
    have gone := size_raiseError frames
      (List.forall_mem_append.2 ⟨passed, List.forall_mem_singleton.2 rfl⟩) e
    cases ran
    exact absurd (lt_of_frameAt? found) (Nat.not_lt.2 gone)

section

variable (longer : Longer more below m n)
include longer

theorem Longer.turn {x : Option Step} (turned : m.turn = (x, m'))
    (remains : Remains below.length m m') : ∃ n', n.turn = (x, n') ∧ Longer more below m' n' := by
  obtain ⟨own, code, mirrors⟩ := longer
  cases own with
  | cons f own =>
    have both := mirrors.turn rfl
    rw [turned] at both
    exact ofTurned both remains
  | nil =>
    cases code with
    | nil =>
      have left : m.turn = (none, { m with frames := .ofList below }) := by
        rw [Machine.turn_of_frames (s := .ofList below) mirrors.frames]
        rfl
      rw [turned] at left
      cases left
      obtain ⟨rest, found⟩ := remains.after
      exact absurd (lt_of_frameAt? found) (Nat.lt_irrefl _)
    | cons v code =>
      have mirrors' : verbatim.Mirrors (.body code :: below) (.body (code ++ more) :: below) []
          { m with frames := .ofList (.body code :: below) }
          { n with frames := .ofList (.body (code ++ more) :: below) } :=
        { mirrors with depth := rfl, frames := rfl, frames' := rfl }
      have ends := (Follows.value v).thenPure Tick.checkpoint _ _ _ mirrors'
      have both : Turned verbatim (.body code :: below) (.body (code ++ more) :: below) m.turn
          n.turn := by
        rw [Machine.turn_of_frames (s := .ofList below) mirrors.frames,
          Machine.turn_of_frames (s := .ofList below) mirrors.frames']
        exact Mirrors.afterAdvance (ends.rendered rfl)
      rw [turned] at both
      exact ofTurned both remains

theorem Longer.heed {x : Option Step} (heeded : m.heed = (x, m'))
    (remains : Remains below.length m m') : ∃ n', n.heed = (x, n') ∧ Longer more below m' n' := by
  obtain ⟨own, code, mirrors⟩ := longer
  have both : Turned verbatim (.body code :: below) (.body (code ++ more) :: below) m.heed
      n.heed := by
    refine mirrors.heed (fun breaks => .inr fun passed => ?_) fun c calls => .inr fun passed => ?_
    · have frames : m.frames.toList = (own ++ [.body code]) ++ below := by
        rw [mirrors.frames, List.append_assoc]
        rfl
      have gone := size_leaveLoop (m := { m with control := .none }) frames
        (List.forall_mem_append.2 ⟨passed, List.forall_mem_singleton.2 rfl⟩)
      rw [Machine.heed, breaks] at heeded
      obtain ⟨rest, found⟩ := remains.after
      simp only [heeded] at gone
      exact absurd (lt_of_frameAt? found) (Nat.not_lt.2 gone)
    · obtain ⟨f, member, stops⟩ := remains.stopped c calls
      rw [framesAbove_of_append mirrors.frames] at member
      exact stops (passed f member)
  rw [heeded] at both
  exact ofTurned both remains

theorem Longer.stepsBy (steps : m.StepsBy (Remains below.length) s m') :
    ∃ n', n.StepsBy (Remains below.length) s n' ∧ Longer more below m' n' := by
  refine steps.matched (fun longer turned remains => ?_) (fun longer heeded remains => ?_) longer
  · obtain ⟨n', turned', after⟩ := longer.turn turned remains
    exact ⟨n', turned', longer.remains after remains, after⟩
  · obtain ⟨n', heeded', after⟩ := longer.heed heeded remains
    exact ⟨n', heeded', longer.remains after remains, after⟩

theorem Longer.answer (reply : Reply Value) :
    Longer more below (m.answer reply) (n.answer reply) := by
  obtain ⟨own, code, mirrors⟩ := longer
  have answered := mirrors.answer reply
  rw [value_verbatim, Reply.map_id] at answered
  exact ⟨own, code, answered⟩

theorem Longer.runsBy {replies : List (Option (Reply Value))} {steps : List Step}
    (runs : m.RunsBy (Remains below.length) replies steps m') :
    ∃ n', n.RunsBy (Remains below.length) replies steps n' ∧ Longer more below m' n' := by
  induction runs generalizing n with
  | nil => exact ⟨n, .nil, longer⟩
  | step stepped _ ih =>
    obtain ⟨n₁, stepped', next⟩ := longer.stepsBy stepped
    obtain ⟨n', runs', after⟩ := ih next
    exact ⟨n', .step stepped' runs', after⟩
  | answer stepped _ ih =>
    obtain ⟨n₁, stepped', next⟩ := longer.stepsBy stepped
    obtain ⟨n', runs', after⟩ := ih (next.answer _)
    exact ⟨n', .answer stepped' runs', after⟩

/-- When the body is on top and has nothing left, the other machine is about to run `more`. -/
theorem Longer.exhausted (onTop : m.frames.size = below.length + 1)
    (through : m.frameAt? below.length = some (.body [])) :
    m.frames.toList = .body [] :: below ∧
      n = { m with frames := .ofList (.body more :: below) } := by
  obtain ⟨own, code, mirrors⟩ := longer
  obtain ⟨_, frames, same⟩ := mirrors_verbatim_iff.1 mirrors
  have height := congrArg List.length frames
  rw [m.frames.length_eq, onTop, List.length_append, List.length_cons] at height
  obtain rfl : own = [] := List.eq_nil_of_length_eq_zero (by omega)
  rw [frameAt?_of_append frames] at through
  cases through
  exact ⟨frames, same⟩

end

end Machine

/-- The steps that take a machine through the body of a quotation are also made, with the same
results, with more code behind it. They lead to the same state except that the code that was put
behind is what is left of the body. -/
theorem runsBy_body_append {s m m' : Machine} {p : List Value}
    {replies : List (Option (Reply Value))} {steps : List Step}
    (pushed : Exec.pushFrame (.body p) s = .ok () m)
    (runs : m.RunsBy (Machine.Remains s.frames.size) replies steps m')
    (onTop : m'.frames.size = s.frames.size + 1)
    (through : m'.frameAt? s.frames.size = some (.body [])) (q : List Value) :
    m'.frames = s.frames.push (.body []) ∧
      ∃ n, Exec.pushFrame (.body (p ++ q)) s = .ok () n ∧
        n.RunsBy (Machine.Remains s.frames.size) replies steps
          { m' with frames := s.frames.push (.body q) } := by
  obtain rfl := Exec.pushFrame_eq_ok pushed
  have pushed' : Exec.pushFrame (.body (p ++ q)) s =
      .ok () { s with frames := s.frames.push (.body (p ++ q)) } := by
    rw [Exec.pushFrame] at pushed ⊢
    split at pushed
    · cases pushed
    · next room => rw [if_neg room]
  have listed (code : List Value) : s.frames.push (.body code) =
      .ofList (.body code :: s.frames.toList) := Stack.ext rfl
  have longer : Machine.Longer q s.frames.toList { s with frames := s.frames.push (.body p) }
      { s with frames := s.frames.push (.body (p ++ q)) } := by
    rw [listed (p ++ q)]
    exact ⟨[], p, mirrors_verbatim_iff.2 ⟨rfl, rfl, rfl⟩⟩
  rw [← s.frames.length_eq] at runs onTop through ⊢
  obtain ⟨n', runs', after⟩ := longer.runsBy runs
  obtain ⟨frames, rfl⟩ := after.exhausted onTop through
  rw [← listed] at runs'
  exact ⟨Stack.ext frames, _, pushed', runs'⟩

/-- The code calls a closure, which runs on frames of its own, and then pushes a number. -/
theorem runsBy_body_append_call :
    ∃ m m' n, Exec.pushFrame (.body [.ref "f" .none, .int 2]) (Machine.knowing.load []) =
        .ok () m ∧
      m.RunsBy (Machine.Remains 1) [none, none, none] [.checkpoint, .checkpoint, .checkpoint] m' ∧
      m'.operands.toList = [.int 1, .int 2] ∧ m'.frames.toList = [.body [], .program []] ∧
      Exec.pushFrame (.body [.ref "f" .none, .int 2, .int 3]) (Machine.knowing.load []) =
        .ok () n ∧
      n.RunsBy (Machine.Remains 1) [none, none, none] [.checkpoint, .checkpoint, .checkpoint]
        { m' with frames := (Machine.knowing.load []).frames.push (.body [.int 3]) } := by
  have remains {m m' : Machine} {code code' : List Value} (calm : m.control = .none)
      (before : m.frameAt? 1 = some (.body code)) (after : m'.frameAt? 1 = some (.body code')) :
      Machine.Remains 1 m m' := by
    refine ⟨⟨code, before⟩, ⟨code', after⟩, fun c calls => ?_⟩
    rw [calm] at calls
    cases calls
  let m : Machine := { Machine.knowing.load [] with
    frames := (Machine.knowing.load []).frames.push (.body [.ref "f" .none, .int 2]) }
  have runs : m.RunsBy (Machine.Remains 1) [none, none, none]
      [.checkpoint, .checkpoint, .checkpoint] _ :=
    .step (.more rfl (remains rfl rfl rfl) (.last rfl (remains rfl rfl rfl)))
      (.step (.more rfl (remains rfl rfl rfl) (.last rfl (remains rfl rfl rfl)))
        (.step (.more rfl (remains rfl rfl rfl)
          (.more rfl (remains rfl rfl rfl) (.more rfl (remains rfl rfl rfl)
            (.last rfl (remains rfl rfl rfl))))) .nil))
  obtain ⟨_, n, pushed, runs'⟩ := runsBy_body_append (s := Machine.knowing.load []) rfl runs rfl rfl
    [.int 3]
  exact ⟨m, _, n, rfl, runs, rfl, rfl, pushed, runs'⟩

end Catena
