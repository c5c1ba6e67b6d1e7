import Catena.Proofs.Entering
import Catena.Proofs.Hosting

set_option autoImplicit false

/-!
The rounds of a step. A step heeds the signal that the one before has left and deals with frames
until it has an answer. Each round that has none either puts code that is not empty on top, and then
the next one has, or leaves less to do: of the tests of a conditional, of the activations, attempts
and updates that have come to their end, or of what an operation among the tests can still take off
the stack. So no step goes on forever. As long as tests and actions are code, the frames tell how
many rounds there can be.
-/

namespace Catena

/-! ### Rounds -/

namespace Machine

/-- A number of rounds without an answer, and one that has it. -/
inductive Loops : Machine → Nat → Step → Machine → Prop
  | answers {m s m'} : m.pass = (some s, m') → Loops m 0 s m'
  | again {n m m₁ s m'} : m.pass = (none, m₁) → Loops m₁ n s m' → Loops m (n + 1) s m'

variable {m m₁ m' : Machine} {s : Step} {n : Nat}

/-- A round without an answer leaves no signal. -/
theorem calm_of_pass (passed : m.pass = (none, m')) : m'.control = .none := by
  by_cases calm : m.control = .none
  · have carries := carries_turn calm
    rw [← pass_of_calm calm, passed] at carries
    exact (control_of_registers carries).trans calm
  · rw [pass_of_control calm] at passed
    have awake : m.control ≠ .suspend := by
      intro asleep
      rw [heed, asleep] at passed
      cases passed
    have carries := carries_heed awake
    rw [passed] at carries
    exact control_of_registers carries

theorem Proceeds.loops {R : Machine → Machine → Prop} (proceeds : m.Proceeds R s m')
    (calm : m.control = .none) : ∃ n, Loops m n s m' := by
  induction proceeds with
  | last turned _ => exact ⟨0, .answers ((pass_of_calm calm).trans turned)⟩
  | more turned _ _ ih =>
    have passed := (pass_of_calm calm).trans turned
    obtain ⟨n, rest⟩ := ih (calm_of_pass passed)
    exact ⟨n + 1, .again passed rest⟩

/-- A step is made of rounds. -/
theorem loops_step (m : Machine) : ∃ n, Loops m n m.step.1 m.step.2 := by
  by_cases calm : m.control = .none
  · have same : m.step = m.proceed := by rw [step, calm]
    rw [same]
    exact m.proceeds_proceed.loops calm
  · have passed := pass_of_control calm
    rw [step_eq_heed]
    generalize m.heed = x at passed
    obtain ⟨said, m₁⟩ := x
    cases said with
    | some s => exact ⟨0, .answers passed⟩
    | none =>
      obtain ⟨n, rest⟩ := m₁.proceeds_proceed.loops (calm_of_pass passed)
      exact ⟨n + 1, .again passed rest⟩

/-- Rounds that come to an answer are not the beginning of endlessly many without one. -/
theorem Loops.not_endless (loops : Loops m n s m') :
    ¬ ∃ chain : Nat → Machine, chain 0 = m ∧ ∀ i, (chain i).pass = (none, chain (i + 1)) := by
  induction loops with
  | answers passed =>
    rintro ⟨chain, rfl, endless⟩
    cases passed.symm.trans (endless 0)
  | again passed _ ih =>
    rintro ⟨chain, rfl, endless⟩
    cases passed.symm.trans (endless 0)
    exact ih ⟨fun i => chain (i + 1), rfl, fun i => endless (i + 1)⟩

end Machine

/-! ### What frames can take -/

/-- Quotations and closures. -/
def Value.isCode : Value → Bool
  | .quote .. | .closure _ => true
  | _ => false

theorem Value.isCallable_of_isCode {v : Value} (code : v.isCode = true) : v.isCallable = true := by
  cases v with
  | quote _ _ | closure _ => rfl
  | _ => cases code

/-- The frames that code needs to run: a closure has one for itself and one for its body. -/
def Value.rounds : Value → Nat
  | .closure _ => 2
  | _ => 1

/-- A test is invoked, run and looked at, and then the action is run or the next test has its
turn. -/
def testRounds : List (Value × Value) → Nat
  | [] => 1
  | (test, action) :: rest => test.rounds + (max action.rounds (testRounds rest) + 1) + 1

/-- How many rounds a frame can take until it is gone, if no code runs. -/
def Frame.rounds : Frame → Nat
  | .condTest pairs => testRounds pairs
  | .condCheck action rest => max action.rounds (testRounds rest) + 1
  | _ => 1

def totalRounds : List Frame → Nat
  | [] => 0
  | frame :: below => frame.rounds + totalRounds below

def PairsCode (pairs : List (Value × Value)) : Prop :=
  ∀ pair ∈ pairs, pair.1.isCode = true ∧ pair.2.isCode = true

/-- Tests and actions are code. -/
def Frame.TestsCode : Frame → Prop
  | .condTest pairs => PairsCode pairs
  | .condCheck action rest => action.isCode = true ∧ PairsCode rest
  | _ => True

def Machine.TestsCode (m : Machine) : Prop := ∀ f ∈ m.frames.toList, f.TestsCode

theorem testRounds_pos (pairs : List (Value × Value)) : 0 < testRounds pairs := by
  cases pairs <;> simp [testRounds]

theorem Frame.rounds_pos (f : Frame) : 0 < f.rounds := by
  cases f with
  | condTest pairs => exact testRounds_pos pairs
  | _ => simp [Frame.rounds]

@[simp] theorem totalRounds_append (above below : List Frame) :
    totalRounds (above ++ below) = totalRounds above + totalRounds below := by
  induction above with
  | nil => simp [totalRounds]
  | cons f above ih =>
    simp only [List.cons_append, totalRounds, ih]
    omega

/-- A frame that is dealt with gives way to frames that take less, or to code. -/
structure Frame.Yields (f : Frame) (new : List Frame) : Prop where
  code : ∀ g ∈ new, g.TestsCode
  less : new.head?.any Frame.isReady = true ∨ totalRounds new < f.rounds

theorem Frame.yields_nil (f : Frame) : f.Yields [] := ⟨List.forall_mem_nil _, .inr f.rounds_pos⟩

/-- A body that is not empty has been put above the frame that repeats it. -/
theorem Frame.yields_body {f g : Frame} {body : List Value} (filled : body.isEmpty ≠ true)
    (tests : g.TestsCode) : f.Yields [.body body, g] := by
  refine ⟨fun h member => ?_, .inl ?_⟩
  · rcases List.mem_pair.1 member with rfl | rfl
    · trivial
    · exact tests
  · cases body with
    | nil => exact absurd rfl filled
    | cons v rest => rfl

namespace Exec

variable {m m' : Machine} {below : Stack Frame}

theorem invoke_code {v : Value} (code : v.isCode = true) (ran : invoke v m = .ok () m') :
    ∃ new, m'.frames.toList = new ++ m.frames.toList ∧ (∀ g ∈ new, g.TestsCode) ∧
      totalRounds new = v.rounds := by
  rw [invoke.eq_def] at ran
  cases v with
  | quote id body =>
    refine ⟨[.body body], ?_, List.forall_mem_singleton.2 trivial, rfl⟩
    rw [pushFrame_eq_ok ran]
    exact Stack.toList_push _ _
  | closure c =>
    obtain ⟨frames, _⟩ := enter_eq_ok ran
    refine ⟨[.body c.body, .call c m'.operands.count], frames, fun g member => ?_, rfl⟩
    rcases List.mem_pair.1 member with rfl | rfl <;> trivial
  | _ => cases code

theorem yields_checkCondition {action : Value} {pairs : List (Value × Value)}
    (tests : (Frame.condCheck action pairs).TestsCode)
    (ran : checkCondition action pairs below m = .ok () m') :
    ∃ new, m'.frames.toList = new ++ below.toList ∧
      (Frame.condCheck action pairs).Yields new := by
  obtain ⟨v, mid₁, run₁, rest₁⟩ := bind_eq_ok ran
  split at rest₁
  · obtain ⟨_, mid₂, run₂, rest₂⟩ := bind_eq_ok rest₁
    cases run₂
    obtain ⟨new, frames, code, rounds⟩ := invoke_code tests.1 rest₂
    refine ⟨new, frames, code, .inr ?_⟩
    rw [rounds, Frame.rounds]
    omega
  · cases rest₁
    refine ⟨[.condTest pairs], Stack.toList_push _ _, List.forall_mem_singleton.2 tests.2, .inr ?_⟩
    simp only [totalRounds, Frame.rounds]
    omega
  · cases rest₁

theorem frames_leaveCall {c : Closure Value} {floor : Nat}
    (ran : leaveCall c floor below m = .ok () m') : m'.frames = below := by
  obtain ⟨_, _, _, rest⟩ := bind_eq_ok ran
  cases rest
  rfl

theorem frames_leaveUpdate {items : List Value} {field : Field} {types : Scope} {floor : Nat}
    (ran : leaveUpdate items field types floor below m = .ok () m') : m'.frames = below := by
  obtain ⟨seen, mid₁, run₁, rest₁⟩ := bind_eq_ok ran
  obtain ⟨_, mid₂, run₂, rest₂⟩ := bind_eq_ok rest₁
  cases run₂
  split at rest₂
  · exact ((local_pop.bind fun _ => local_writeField) _ _ _ rest₂).1
  · cases rest₂

theorem frames_pushElement {source : Source} {index : Nat} {withIndex : Bool}
    (ran : pushElement source index withIndex m = .ok () m') : m'.frames = m.frames := by
  cases withIndex <;> cases ran <;> rfl

theorem yields_loop {body : List Value} (top : m.frames.toList = .loop body :: below.toList)
    (ran : advance (.loop body) below m = .ok .internal m') :
    ∃ new, m'.frames.toList = new ++ below.toList ∧ (Frame.loop body).Yields new := by
  obtain ⟨filled, rfl⟩ := runBody_eq_internal ran
  refine ⟨[.body body, .loop body], ?_, Frame.yields_body filled trivial⟩
  change _ :: m.frames.toList = _
  rw [top]
  rfl

theorem yields_iterate {source : Source} {index : Nat} {withIndex : Bool} {body : List Value}
    (ran : advance (.iterate source index withIndex body) below m = .ok .internal m') :
    ∃ new, m'.frames.toList = new ++ below.toList ∧
      (Frame.iterate source index withIndex body).Yields new := by
  simp only [advance] at ran
  split at ran
  · obtain ⟨_, mid₁, run₁, rest₁⟩ := bind_eq_ok ran
    obtain ⟨_, mid₂, run₂, rest₂⟩ := bind_eq_ok rest₁
    cases run₁
    obtain ⟨filled, rfl⟩ := runBody_eq_internal rest₂
    have next : (Frame.iterate source (index + 1) withIndex body).TestsCode := trivial
    refine ⟨_, ?_, Frame.yields_body filled next⟩
    change _ :: mid₂.frames.toList = _
    rw [frames_pushElement run₂]
    rfl
  · cases ran
    exact ⟨[], rfl, Frame.yields_nil _⟩

theorem yields_condTest {pair : Value × Value} {rest : List (Value × Value)}
    (tests : (Frame.condTest (pair :: rest)).TestsCode)
    (ran : advance (.condTest (pair :: rest)) below m = .ok .internal m') :
    ∃ new, m'.frames.toList = new ++ below.toList ∧
      (Frame.condTest (pair :: rest)).Yields new := by
  obtain ⟨_, mid₁, run₁, rest₁⟩ := bind_eq_ok ran
  obtain ⟨_, mid₂, run₂, rest₂⟩ := bind_eq_ok rest₁
  cases run₁
  cases rest₂
  obtain ⟨⟨test, action⟩, others⟩ := List.forall_mem_cons.1 tests
  obtain ⟨new, frames, code, rounds⟩ := invoke_code test run₂
  refine ⟨new ++ [.condCheck pair.2 rest], ?_, ?_, .inr ?_⟩
  · rw [frames, List.append_assoc]
    rfl
  · exact List.forall_mem_append.2 ⟨code, List.forall_mem_singleton.2 ⟨action, others⟩⟩
  · rw [totalRounds_append, rounds]
    simp only [totalRounds, Frame.rounds, testRounds]
    omega

/-- What becomes of the topmost frame in a round without an answer. -/
theorem yields_advance {f : Frame} (top : m.frames.toList = f :: below.toList)
    (tests : f.TestsCode) (ran : advance f below m = .ok .internal m') :
    ∃ new, m'.frames.toList = new ++ below.toList ∧ f.Yields new := by
  have dropped (frames : m'.frames = below) :
      ∃ new, m'.frames.toList = new ++ below.toList ∧ f.Yields new :=
    ⟨[], congrArg Stack.toList frames, f.yields_nil⟩
  cases f with
  | program tokens =>
    cases tokens with
    | nil =>
      cases ran
      exact dropped rfl
    | cons t rest => cases isReady_of_advance ran
  | body code =>
    cases code with
    | nil =>
      cases ran
      exact dropped rfl
    | cons v rest => cases isReady_of_advance ran
  | call c floor =>
    obtain ⟨_, _, left, rest⟩ := bind_eq_ok ran
    cases rest
    exact dropped (frames_leaveCall left)
  | loop body => exact yields_loop top ran
  | iterate source index withIndex body => exact yields_iterate ran
  | condTest pairs =>
    cases pairs with
    | nil =>
      cases ran
      exact dropped rfl
    | cons pair rest => exact yields_condTest tests ran
  | condCheck action rest =>
    obtain ⟨_, _, checked, rest⟩ := bind_eq_ok ran
    cases rest
    exact yields_checkCondition tests checked
  | attempt height =>
    cases ran
    exact dropped rfl
  | update items field types floor =>
    obtain ⟨_, _, left, rest⟩ := bind_eq_ok ran
    cases rest
    exact dropped (frames_leaveUpdate left)

end Exec

/-! ### How long a step takes -/

namespace Machine

variable {m m' : Machine} {s : Step} {n : Nat}

def rounds (m : Machine) : Nat := totalRounds m.frames.toList

theorem advance_of_turn (turned : m.turn = (none, m')) :
    ∃ f below, m.frames.toList = f :: Stack.toList below ∧
      Exec.advance f below m = .ok .internal m' := by
  unfold turn at turned
  split at turned
  · cases turned
  · next f below popped =>
    refine ⟨f, below, Stack.pop?_eq_some_iff.1 popped, ?_⟩
    generalize Exec.advance f below m = x at turned
    cases x with
    | error _ _ => cases turned
    | ok tick _ =>
      cases tick with
      | internal =>
        cases turned
        rfl
      | checkpoint => cases turned

/-- A round that deals with frames. -/
theorem round_of_turn (tests : m.TestsCode) (turned : m.turn = (none, m')) :
    m.isReady = false ∧ 0 < m.rounds ∧ m'.TestsCode ∧
      (m'.isReady = true ∨ m'.rounds < m.rounds) := by
  obtain ⟨f, below, top, ran⟩ := advance_of_turn turned
  rw [TestsCode, top] at tests
  obtain ⟨own, others⟩ := List.forall_mem_cons.1 tests
  obtain ⟨new, frames, code, less⟩ := Exec.yields_advance top own ran
  have rounds : m.rounds = f.rounds + totalRounds below.toList := by
    rw [Machine.rounds, top]
    rfl
  have pos := f.rounds_pos
  refine ⟨?_, by omega, ?_, ?_⟩
  · rw [isReady, top]
    exact Exec.isReady_of_advance ran
  · rw [TestsCode, frames]
    exact List.forall_mem_append.2 ⟨code, others⟩
  · rcases less with ready | less
    · left
      cases new with
      | nil => cases ready
      | cons g new =>
        rw [isReady, frames]
        exact ready
    · right
      rw [rounds, Machine.rounds, frames, totalRounds_append]
      omega

theorem Loops.le_of_calm (loops : Loops m n s m') (calm : m.control = .none)
    (tests : m.TestsCode) : n ≤ m.rounds ∧ (m.isReady = true → n = 0) := by
  induction loops with
  | answers _ => exact ⟨Nat.zero_le _, fun _ => rfl⟩
  | again passed _ ih =>
    have turned := (pass_of_calm calm).symm.trans passed
    obtain ⟨waiting, pos, tests', less⟩ := round_of_turn tests turned
    obtain ⟨rest, none⟩ := ih (calm_of_pass passed) tests'
    refine ⟨?_, fun ready => by cases waiting.symm.trans ready⟩
    rcases less with ready | less
    · rw [none ready]
      exact pos
    · exact Nat.lt_of_le_of_lt rest less

theorem ok_of_afterSignal {x : EStateM.Result Signal Machine Unit}
    (after : afterSignal x = (none, m')) : x = .ok () m' := by
  cases x with
  | ok _ _ =>
    cases after
    rfl
  | error _ _ => cases after

/-- A signal gives up frames, and a tail call puts two in the place of one. -/
theorem rounds_of_heed (tests : m.TestsCode) (heeded : m.heed = (none, m')) :
    m'.TestsCode ∧ m'.rounds ≤ m.rounds + 1 := by
  unfold heed at heeded
  split at heeded
  · cases heeded
    exact ⟨tests, Nat.le_succ _⟩
  · cases heeded
  · cases heeded
  · obtain ⟨gone, frames⟩ := Exec.leaveLoop_suffix { m with control := .none }
    rw [ok_of_afterSignal heeded] at frames
    change gone ++ m'.frames.toList = m.frames.toList at frames
    rw [TestsCode, ← frames] at tests
    rw [rounds, rounds, ← frames, totalRounds_append]
    exact ⟨(List.forall_mem_append.1 tests).2, by omega⟩
  · next target _ =>
    have ran := ok_of_afterSignal heeded
    rcases Exec.replaceCall_cases { m with control := .none } target with
      ⟨_, failed⟩ | ⟨_, _, _, _, frames, _, ⟨_, _, failed, _⟩ | ⟨_, _, replaced, frames', _⟩⟩
    · cases ran.symm.trans failed
    · cases ran.symm.trans failed
    · cases ran.symm.trans replaced
      change m.frames.toList = _ at frames
      rw [TestsCode, frames] at tests
      obtain ⟨_, others⟩ := List.forall_mem_cons.1 (List.forall_mem_append.1 tests).2
      rw [TestsCode, rounds, rounds, frames, frames', totalRounds_append]
      simp only [List.forall_mem_cons, totalRounds, Frame.rounds]
      exact ⟨⟨trivial, trivial, others⟩, by omega⟩

/-- The bound for a step, whatever signal it starts with. -/
theorem Loops.le_rounds (loops : Loops m n s m') (tests : m.TestsCode) : n ≤ m.rounds + 2 := by
  by_cases calm : m.control = .none
  · have within := (loops.le_of_calm calm tests).1
    omega
  · cases loops with
    | answers _ => exact Nat.zero_le _
    | again passed rest =>
      obtain ⟨tests', more⟩ := rounds_of_heed tests ((pass_of_control calm).symm.trans passed)
      have within := (rest.le_of_calm (calm_of_pass passed) tests').1
      omega

end Machine

/-- Every step comes to an answer after a number of rounds, and no machine goes through endlessly
many without one: whatever its frames are and whatever signal it heeds, a step ends at a checkpoint,
on a suspension or with the run. If all tests and actions of conditionals are code, the frames bound
the rounds. -/
theorem step_returns (m : Machine) :
    (∃ n s m', m.Loops n s m' ∧ m.step = (s, m') ∧ (m.TestsCode → n ≤ m.rounds + 2)) ∧
      ¬ ∃ chain : Nat → Machine, chain 0 = m ∧ ∀ i, (chain i).pass = (none, chain (i + 1)) := by
  obtain ⟨n, loops⟩ := m.loops_step
  exact ⟨⟨n, _, _, loops, rfl, loops.le_rounds⟩, loops.not_endless⟩

/-- The program `true [ { } { } ] cond`. -/
def emptyTest : List Token :=
  [⟨.bool true, .none⟩, ⟨.opening .array, .none⟩, ⟨.opening .quote, .none⟩,
    ⟨.closing .quote, .none⟩, ⟨.opening .quote, .none⟩, ⟨.closing .quote, .none⟩,
    ⟨.closing .array, .none⟩, ⟨.name "cond", .none⟩]

theorem Exec.advance_condTest {test action : Value} {rest : List (Value × Value)}
    {below : Stack Frame} {m m' : Machine}
    (invoked : invoke test { m with frames := below.push (.condCheck action rest) } = .ok () m') :
    advance (.condTest ((test, action) :: rest)) below m = .ok .internal m' := by
  change (do
    invoke test
    pure Tick.internal : Exec Tick) { m with frames := below.push (.condCheck action rest) } = _
  simp only [Bind.bind, EStateM.bind, invoked]
  rfl

theorem Exec.advance_condCheck {action : Value} {rest : List (Value × Value)} {s : Operands}
    {below : Stack Frame} {m m' : Machine} (popped : m.operands.pop = .ok (.bool true, s))
    (invoked : invoke action { m with operands := s, frames := below } = .ok () m') :
    advance (.condCheck action rest) below m = .ok .internal m' := by
  simp only [advance, checkCondition, pop, Bind.bind, EStateM.bind, popped]
  change (do
    invoke action
    pure Tick.internal : Exec Tick) { m with operands := s, frames := below } = _
  simp only [Bind.bind, EStateM.bind, invoked]
  rfl

/-- Neither the test nor the action has anything to run. The last step deals with the conditional,
the test, the truth value, the action and the program, one in a round, and finds nothing left. -/
theorem step_returns_empty :
    ∃ m m', ((Machine.new .standard).load emptyTest).Reaches m ∧ m.TestsCode ∧ m.rounds = 5 ∧
      m.Loops 5 .done m' ∧ ∃ n s m₁, m.Loops n s m₁ ∧ m.step = (s, m₁) ∧ n ≤ 7 := by
  let start := (Machine.new .standard).load emptyTest
  let having (operands : List Value) (frames : List Frame) (checkpoints : Nat) : Machine :=
    { Machine.new .standard with
      operands := ⟨.ofList operands, []⟩, frames := .ofList frames, nextId := 3, checkpoints }
  let built := having [.array 2 [.quote 0 [], .quote 1 []], .bool true]
    [.program (emptyTest.drop 7)] 7
  let chosen := having [.bool true] [.condTest [(.quote 0 [], .quote 1 [])], .program []] 8
  let tested := having [.bool true] [.body [], .condCheck (.quote 1 []) [], .program []] 8
  let checked := having [.bool true] [.condCheck (.quote 1 []) [], .program []] 8
  let decided := having [] [.body [], .program []] 8
  have reads : start.Reaches built := by
    iterate 7 refine .head (.pass nofun rfl rfl) ?_
    exact .refl
  have chooses : built.Moves chosen := by
    refine .pass (s := some .checkpoint) nofun ?_ rfl
    have ran : Exec.token ⟨.name "cond", .none⟩ (built.load []) =
        .ok () { chosen with checkpoints := 7 } :=
      (Exec.token_of_builtin rfl rfl rfl).trans (Exec.invokeOperation_of_none rfl)
    exact congrArg Machine.afterAdvance (Machine.advance_of_token ran)
  have tests : chosen.TestsCode := by
    intro f member
    rcases List.mem_pair.1 member with rfl | rfl
    · exact List.forall_mem_singleton.2 ⟨rfl, rfl⟩
    · trivial
  have first : chosen.pass = (none, tested) := by
    apply congrArg Machine.afterAdvance (Exec.advance_condTest ?_)
    rw [Exec.invoke]
    rfl
  have third : checked.pass = (none, decided) := by
    apply congrArg Machine.afterAdvance (Exec.advance_condCheck rfl ?_)
    rw [Exec.invoke]
    rfl
  have loops : chosen.Loops 5 .done (having [] [] 8) :=
    .again first (.again rfl (.again third (.again rfl (.again rfl (.answers rfl)))))
  obtain ⟨n, s, m₁, rest, step, bound⟩ := (step_returns chosen).1
  exact ⟨chosen, _, reads.tail chooses, tests, rfl, loops, n, s, m₁, rest, step, bound tests⟩

end Catena
