import Catena.Proofs.Abreast
import Catena.Proofs.Session

set_option autoImplicit false

/-!
Waiting for answers that are there. An operation of the host that has to be awaited although its
answer is ready may as well give the answer at once: the run that a host drives to its end comes to
the same end as the run of the machine that does not wait. The machine that waits makes a few more
moves, so the two are followed from one common state to the next.
-/

namespace Catena

open Translation

/-! ### Giving answers at once -/

mutual

/-- A value in which every operation gives its answer at once if the answer is there. -/
def Value.prompt : Value → Value
  | .array id items => .array id (promptAll items)
  | .quote id code => .quote id (promptAll code)
  | .closure ⟨id, name, body, signature, scope⟩ =>
    .closure ⟨id, name, promptAll body, signature, promptScope scope⟩
  | .op (.builtin ⟨name, action⟩) origin => .op (.builtin ⟨name, promptAction action⟩) origin
  | .op (.data ⟨name, action⟩) origin => .op (.data ⟨name, promptData action⟩) origin
  | .int n => .int n
  | .float x => .float x
  | .bool b => .bool b
  | .str text => .str text
  | .sym name => .sym name
  | .nil => .nil
  | .signature s => .signature s
  | .marker m => .marker m
  | .ref name origin => .ref name origin
  | .error e => .error e

def promptAll : List Value → List Value
  | [] => []
  | v :: rest => v.prompt :: promptAll rest

def promptEntries : List (String × Value) → List (String × Value)
  | [] => []
  | (name, v) :: rest => (name, v.prompt) :: promptEntries rest

def promptScope : Scope → Scope
  | ⟨entries⟩ => ⟨promptEntries entries⟩

def promptReply : Reply Value → Reply Value
  | .value v => .value v.prompt
  | .nothing => .nothing
  | .failure e => .failure e

def promptAction : BuiltinAction Value → BuiltinAction Value
  | .primitive p => .primitive p
  | .reply r => .reply (promptReply r)
  | .await ⟨_, .ready r, _⟩ => .reply (promptReply r)
  | .await ⟨label, .later milliseconds r, cancel⟩ =>
    .await ⟨label, .later milliseconds (promptReply r), cancel⟩
  | .await ⟨label, .never, cancel⟩ => .await ⟨label, .never, cancel⟩

def promptData : DataAction Value → DataAction Value
  | .construct type fields types => .construct type fields (promptScope types)
  | .isInstance type => .isInstance type
  | .isVariant variants => .isVariant variants
  | .get field => .get field
  | .set field types => .set field (promptScope types)
  | .update field types => .update field (promptScope types)

end

theorem promptAll_eq_map (values : List Value) : promptAll values = values.map Value.prompt := by
  induction values with
  | nil => rfl
  | cons v rest ih => rw [promptAll, ih, List.map_cons]

theorem promptEntries_eq_map (entries : List (String × Value)) :
    promptEntries entries = entries.map fun entry => (entry.1, entry.2.prompt) := by
  induction entries with
  | nil => rfl
  | cons entry rest ih => rw [promptEntries, ih, List.map_cons]

theorem promptScope_eq_map (scope : Scope) : promptScope scope = scope.map Value.prompt := by
  rw [promptScope, promptEntries_eq_map, Bindings.map]

theorem promptReply_eq_map (r : Reply Value) : promptReply r = r.map Value.prompt := by
  cases r <;> simp only [promptReply, Reply.map]

theorem promptAction_eq_translate (a : BuiltinAction Value) :
    promptAction a = a.translate Value.prompt true := by
  cases a with
  | primitive p => simp only [promptAction, BuiltinAction.translate]
  | reply r => simp only [promptAction, BuiltinAction.translate, promptReply_eq_map]
  | await a =>
    obtain ⟨label, future, cancel⟩ := a
    cases future with
    | ready r => simp only [promptAction, BuiltinAction.translate, promptReply_eq_map]
    | later milliseconds r =>
      simp only [promptAction, BuiltinAction.translate, Pending.map, Future.map,
        promptReply_eq_map]
    | never => simp only [promptAction, BuiltinAction.translate, Pending.map, Future.map]

theorem promptData_eq_map (a : DataAction Value) : promptData a = a.map Value.prompt := by
  cases a <;> simp only [promptData, DataAction.map, promptScope_eq_map]

/-- Answers that are there are given at once. The machines do not reach the same number of
checkpoints. -/
def Translation.prompting : Translation where
  prompt := true
  value := Value.prompt
  counts _ _ := True
  value_plain := by
    intro v plain
    cases v <;> first | rfl | cases plain
  value_array _ items := by rw [Value.prompt, promptAll_eq_map]
  value_quote _ code := by rw [Value.prompt, promptAll_eq_map]
  value_closure c := by rw [Value.prompt, promptAll_eq_map, promptScope_eq_map, Closure.map]
  value_op o origin := by
    cases o with
    | builtin b =>
      rw [Value.prompt, promptAction_eq_translate, Operation.translate, Builtin.translate]
    | data d => rw [Value.prompt, promptData_eq_map, Operation.translate, DataOp.map]
  counts_succ _ := trivial

/-- The machine whose operations give at once the answers that are there. -/
def Machine.prompt (m : Machine) : Machine :=
  { m with
    registry := prompting.registry m.registry
    operands := m.operands.map Value.prompt
    scopes := m.scopes.map Value.prompt
    report := m.report.map prompting.report }

theorem Machine.Idle.prompt {m : Machine} (idle : m.Idle) : m.prompt.Idle where
  frames := idle.frames
  floors := idle.floors
  saved := by
    change m.scopes.saved.map _ = []
    rw [idle.saved, List.map_nil]
  pending := idle.pending
  openQuotes := idle.openQuotes
  openParams := idle.openParams

theorem Machine.Idle.mirrors {m : Machine} (idle : m.Idle) (tokens : List Token) :
    prompting.Mirrors [] [] [.program tokens] (m.load tokens) (m.prompt.load tokens) where
  depth := rfl
  frames := rfl
  frames' := rfl
  registry := rfl
  operands := rfl
  scopes := rfl
  control := rfl
  pending := by
    change m.pending = m.pending.map _
    rw [idle.pending, Option.map_none]
  openQuotes := rfl
  openParams := rfl
  origin := rfl
  maxFrames := rfl
  checkpoints := trivial
  report := rfl
  nextId := rfl

/-! ### Passes -/

section

variable {T : Translation} {own : List Frame} {m n : Machine}

theorem Translation.Mirrors.abort (mirrors : T.Mirrors [] [] own m n) :
    T.Mirrors [] [] [] m.abort n.abort := by
  have released := mirrors.releaseAll own
  have frames : m.frames.toList = own := mirrors.frames.trans (List.append_nil _)
  have frames' : n.frames.toList = own.map T.frame := mirrors.frames'.trans (List.append_nil _)
  rw [← frames', ← frames] at released
  exact { released with
    frames := rfl, frames' := rfl, control := rfl, pending := rfl, openQuotes := rfl
    openParams := rfl }

/-- On an empty ground errors that escape end both runs. -/
theorem Translation.Turned.over_nothing {x y : Option Step × Machine}
    (turned : Turned T [] [] x y) :
    ∃ s own m n, x = (s, m) ∧ y = (s, n) ∧ T.Mirrors [] [] own m n := by
  cases turned with
  | @both own s m n mirrors => exact ⟨s, own, m, n, rfl, rfl, mirrors⟩
  | @escapes own e m n mirrors passed =>
    obtain ⟨all, all'⟩ := mirrors.passes attemptHeight? passed
      ⟨List.forall_mem_nil _, List.forall_mem_nil _⟩
    refine ⟨some (.failed e), [], m.abort, n.abort, ?_, ?_, mirrors.abort⟩
    · rw [Machine.raiseError_of_passed all, Machine.ending]
    · rw [Machine.raiseError_of_passed all', Machine.ending]

theorem Translation.Mirrors.finish (mirrors : T.Mirrors [] [] [] m n) :
    Turned T [] [] (Machine.ending m.finish) (Machine.ending n.finish) := by
  simp only [Machine.finish, mirrors.isCollecting]
  by_cases collects : m.isCollecting = true
  · rw [if_pos collects, if_pos collects, Machine.fail, Machine.fail, mirrors.locate]
    exact mirrors.raiseError _
  · rw [if_neg collects, if_neg collects]
    exact .both mirrors

end

/-- A machine in a run, and the one that has been given at once the answers that were there. -/
structure Prompted (m n : Machine) : Prop where
  mirrors : ∃ own, prompting.Mirrors [] [] own m n
  aligned : Aligned m
  waiting : m.control = .suspend ∨ m.pending = none

/-- What a pass comes to: the same on both machines, or the one waits for an answer that the other
has been given. -/
inductive Passed : Option Step × Machine → Option Step × Machine → Prop
  | alike {s own m n} : prompting.Mirrors [] [] own m n → Passed (s, m) (s, n)
  | answered {own m n label r cancel tick} : Running m → prompting.Mirrors [] [] own m n →
      Passed (Machine.ending (m.interrupt (.await ⟨label, .ready r, cancel⟩)))
        (Machine.afterAdvance ((do Exec.deliver (r.map Value.prompt); pure tick) n))

theorem Translation.Turned.passed {x y : Option Step × Machine}
    (turned : Turned prompting [] [] x y) : Passed x y := by
  obtain ⟨s, own, m, n, rfl, rfl, mirrors⟩ := turned.over_nothing
  exact .alike mirrors

section

variable {m n : Machine}

theorem Running.passed {own : List Frame} (running : Running m)
    (mirrors : prompting.Mirrors [] [] own m n) : Passed m.turn n.turn := by
  cases own with
  | nil =>
    have top : m.frames.pop? = none := Stack.pop?_eq_none_iff.2 mirrors.frames
    have top' : n.frames.pop? = none := Stack.pop?_eq_none_iff.2 mirrors.frames'
    simp only [Machine.turn, top, top']
    exact mirrors.finish.passed
  | cons f own =>
    obtain ⟨below, below', top, top', ends⟩ := mirrors.advance
    have after := running.advance top
    simp only [Machine.turn, top, top']
    generalize Exec.advance f below m = x at ends after
    generalize Exec.advance (prompting.frame f) below' n = y at ends
    cases ends with
    | alike ends => exact (Mirrors.afterAdvance ends).passed
    | answered _ mirrors => exact .answered after mirrors

theorem Prompted.control (prompted : Prompted m n) : n.control = prompting.control m.control := by
  obtain ⟨own, mirrors⟩ := prompted.mirrors
  exact mirrors.control

theorem Prompted.awake (prompted : Prompted m n) (awake : m.control ≠ .suspend) :
    n.control ≠ .suspend := by
  rw [prompted.control]
  cases control : m.control with
  | suspend => exact absurd control awake
  | _ => simp [Translation.control]

theorem Prompted.pass (prompted : Prompted m n) (awake : m.control ≠ .suspend) :
    Passed m.pass n.pass := by
  obtain ⟨own, mirrors⟩ := prompted.mirrors
  have control := prompted.control
  by_cases calm : m.control = .none
  · have running : Running m := ⟨prompted.aligned, calm, prompted.waiting.resolve_left awake⟩
    rw [calm] at control
    rw [Machine.pass_of_calm calm, Machine.pass_of_calm control]
    exact running.passed mirrors
  · have calm' : n.control ≠ .none := by
      rw [control]
      cases given : m.control with
      | none => exact absurd given calm
      | _ => simp [Translation.control]
    rw [Machine.pass_of_control calm, Machine.pass_of_control calm']
    exact (mirrors.heed (fun _ => .inl .nothing) fun _ _ => .inl .nothing).passed

end

/-! ### Moves -/

theorem Future.wait_map (f : Value → Value) (future : Future Value) :
    Patience.unlimited.wait (future.map f) =
      match Patience.unlimited.wait future with
      | .reply r time => .reply (r.map f) time
      | other => other := by
  cases future with
  | ready r => rfl
  | later milliseconds r => cases milliseconds <;> rfl
  | never => rfl

/-- How two runs end: with the same outcome, and with operands and scopes that differ in nothing but
how operations answer. -/
def PromptedEnds (x y : Outcome × Machine) : Prop :=
  y.1 = x.1 ∧ ∃ own, prompting.Mirrors [] [] own x.2 y.2

section

variable {m m₁ n : Machine}

/-- The machine that waits comes to a state in which it makes the same pass. -/
theorem Prompted.tandem_of_pass {s : Option Step} {own : List Frame} {m' n' : Machine}
    (reaches : m.Reaches m₁) (aligned : Aligned m₁)
    (waiting : m₁.control = .suspend ∨ m₁.pending = none) (awake : m₁.control ≠ .suspend)
    (awake' : n.control ≠ .suspend) (passed : m₁.pass = (s, m')) (passed' : n.pass = (s, n'))
    (mirrors : prompting.Mirrors [] [] own m' n') : Tandem Prompted PromptedEnds m n := by
  have goes := aligned.pass waiting
  rw [passed] at goes
  cases final : s.bind Step.outcome? with
  | none =>
    apply Tandem.both
    · exact Relation.TransGen.tail' reaches (.pass awake passed final)
    · exact .single (.pass awake' passed' final)
    · exact ⟨⟨own, mirrors⟩, goes.aligned.1, goes.aligned.2⟩
  | some o =>
    obtain ⟨s, rfl, final⟩ := Option.bind_eq_some_iff.1 final
    obtain ⟨k, settles⟩ := Machine.SettlesIn.before (.last ⟨awake, passed, final⟩) reaches
    exact .ends settles (.last ⟨awake', passed', final⟩) ⟨rfl, own, mirrors⟩

/-- The machine has waited and goes on with the answer; the other one has gone on with it at
once. -/
theorem Prompted.tandem_of_answer {own : List Frame} {n₁ n' : Machine} {r : Reply Value}
    {tick : Tick} (moves : Relation.TransGen Machine.Moves m m₁) (aligned : Aligned m₁)
    (pending : m₁.pending = none) (awake' : n.control ≠ .suspend)
    (passed' : n.pass = Machine.afterAdvance ((do Exec.deliver r; pure tick) n₁))
    (delivered : Exec.deliver r n₁ = .ok () n')
    (mirrors : prompting.Mirrors [] [] own m₁ n') : Tandem Prompted PromptedEnds m n := by
  have after : n.pass = Machine.afterAdvance (.ok tick n') := by
    rw [passed']
    simp only [Bind.bind, EStateM.bind, delivered]
    rfl
  cases tick with
  | internal =>
    exact .both moves (.single (.pass awake' after rfl)) ⟨⟨own, mirrors⟩, aligned, .inr pending⟩
  | checkpoint =>
    have counted : prompting.Mirrors [] [] own m₁ n'.checkpoint.2 :=
      { mirrors with checkpoints := trivial }
    exact .both moves (.single (.pass awake' after rfl)) ⟨⟨own, counted⟩, aligned, .inr pending⟩

theorem Prompted.tandem_awake (prompted : Prompted m n) (awake : m.control ≠ .suspend) :
    Tandem Prompted PromptedEnds m n := by
  have goes := prompted.aligned.pass prompted.waiting
  have awake' := prompted.awake awake
  have passes := prompted.pass awake
  generalize passed : m.pass = x at goes passes
  generalize passed' : n.pass = y at passes
  cases passes with
  | alike mirrors =>
    exact tandem_of_pass .refl prompted.aligned prompted.waiting awake awake' passed passed' mirrors
  | @answered own m₁ n₁ label r cancel tick running mirrors =>
    let asleep : Machine := { m₁ with
      control := .suspend, pending := some ⟨label, .ready r, cancel⟩
      checkpoints := m₁.checkpoints + 1 }
    have first : Machine.Moves m asleep := .pass awake passed rfl
    have second : Machine.Moves asleep (asleep.answer r) := .answer rfl rfl rfl
    have moves : Relation.TransGen Machine.Moves m (asleep.answer r) := .tail (.single first) second
    have aligned : Aligned (asleep.answer r) := (Goes.aligned goes).1.answer r
    have pending := asleep.pending_answer r
    have control' : n₁.control = .none := by rw [mirrors.control, running.control]; rfl
    have pending' : n₁.pending = none := by rw [mirrors.pending, running.pending]; rfl
    cases r with
    | value v =>
      have pushed : prompting.Mirrors [] [] own (asleep.answer (.value v))
          { n₁ with operands := n₁.operands.push v.prompt } :=
        { mirrors with
          operands := (congrArg (Operands.push · v.prompt) mirrors.operands).trans
            (m₁.operands.map_push Value.prompt v).symm
          control := control', pending := pending', checkpoints := trivial }
      exact tandem_of_answer moves aligned pending awake' passed' rfl pushed
    | nothing =>
      have resumed : prompting.Mirrors [] [] own (asleep.answer .nothing) n₁ :=
        { mirrors with control := control', pending := pending', checkpoints := trivial }
      exact tandem_of_answer moves aligned pending awake' passed' rfl resumed
    | failure e =>
      -- The failure is thrown by one more pass of the machine that has waited.
      have raised : prompting.Mirrors [] [] own
          { asleep.answer (.failure e) with control := .none } n₁ :=
        { mirrors with control := control', pending := pending', checkpoints := trivial }
      obtain ⟨s, own', m', n', thrown, thrown', after⟩ :=
        (raised.raiseError (m₁.locate e)).over_nothing
      refine tandem_of_pass moves.to_reflTransGen aligned (.inr pending) ?_ awake' thrown ?_ after
      · simp [Machine.answer, Machine.failPending]
      · rw [passed', ← thrown', ← mirrors.locate e]
        rfl

theorem Prompted.tandem_asleep (prompted : Prompted m n) (asleep : m.control = .suspend) :
    Tandem Prompted PromptedEnds m n := by
  obtain ⟨own, mirrors⟩ := prompted.mirrors
  have asleep' : n.control = .suspend := by rw [mirrors.control, asleep]; rfl
  have pending' := mirrors.pending
  cases pending : m.pending with
  | none =>
    rw [pending, Option.map_none] at pending'
    have resumed : prompting.Mirrors [] [] own (m.resume none) (n.resume none) :=
      { mirrors with control := rfl }
    obtain ⟨floors, layered, covered, saved⟩ := prompted.aligned
    exact .both (.single (.resume asleep pending)) (.single (.resume asleep' pending'))
      ⟨⟨own, resumed⟩, ⟨floors, layered, covered, saved⟩, .inr pending⟩
  | some a =>
    rw [pending, Option.map_some] at pending'
    have waited' := a.future.wait_map Value.prompt
    cases waited : Patience.unlimited.wait a.future with
    | cancelled => exact absurd waited a.future.unlimited_wait_ne
    | gaveUp =>
      rw [waited] at waited'
      exact .stuck (Machine.not_settlesIn asleep pending waited)
        (Machine.not_settlesIn asleep' pending' waited')
    | reply reply time =>
      rw [waited] at waited'
      apply Tandem.both
      · exact .single (.answer asleep pending waited)
      · exact .single (.answer asleep' pending' waited')
      · exact ⟨⟨own, mirrors.answer reply⟩, prompted.aligned.answer reply,
          .inr (m.pending_answer reply)⟩

theorem Prompted.tandem (m n : Machine) (prompted : Prompted m n) :
    Tandem Prompted PromptedEnds m n := by
  by_cases asleep : m.control = .suspend
  · exact prompted.tandem_asleep asleep
  · exact prompted.tandem_awake asleep

theorem Prompted.settlesAs (prompted : Prompted m n) :
    SettlesAs PromptedEnds m n ∧ SettlesAs (flip PromptedEnds) n m := by
  constructor
  · intro k o m' settles
    exact settles.tandem tandem prompted
  · intro k o n' settles
    exact settles.tandem (fun n m prompted => (tandem m n prompted).symm) prompted

end

theorem Machine.Idle.prompted {m : Machine} (idle : m.Idle) (tokens : List Token) :
    Prompted (m.load tokens) (m.prompt.load tokens) := by
  obtain ⟨aligned, waiting⟩ := (Machine.Loaded.program tokens).sound idle
  exact ⟨⟨[.program tokens], idle.mirrors tokens⟩, aligned, waiting⟩

/-! ### Runs with and without a host -/

section

variable {m m' : Machine} {o : Outcome} {s : Step}

theorem Machine.step_asleep (asleep : m.control = .suspend) : m.step = (.suspended, m) := by
  rw [Machine.step, asleep]

theorem Machine.Stops.ne_checkpoint (stops : m.Stops s m') : s ≠ .checkpoint := by
  obtain ⟨limit, ran⟩ := stops
  intro checkpoint
  induction limit generalizing m with
  | zero => cases ran
  | succ limit ih =>
    rw [Machine.run] at ran
    generalize m.step = x at ran
    obtain ⟨s₁, m₁⟩ := x
    subst checkpoint
    cases s₁ with
    | checkpoint => exact ih ran
    | _ => cases ran

theorem Aligned.settlesIn_of_stops (aligned : Aligned m)
    (waiting : m.control = .suspend ∨ m.pending = none) (stops : m.Stops s m')
    (final : s.outcome? = some o) : ∃ k, m.SettlesIn k o m' := by
  obtain ⟨limit, ran⟩ := stops
  induction limit generalizing m with
  | zero => cases ran
  | succ limit ih =>
    rw [Machine.run] at ran
    by_cases asleep : m.control = .suspend
    · rw [Machine.step_asleep asleep] at ran
      cases ran
      cases final
    · have pending := waiting.resolve_left asleep
      have kept := aligned.step waiting
      obtain ⟨comes, other⟩ := aligned.comes asleep pending
      generalize m.step = x at ran kept comes other
      obtain ⟨s₁, m₁⟩ := x
      cases s₁ with
      | checkpoint =>
        obtain ⟨k, settles⟩ := ih kept.aligned kept.waiting ran
        exact settles.before (Relation.TransGen.to_reflTransGen comes)
      | suspended => exact absurd rfl other
      | done =>
        cases ran
        cases final
        exact comes
      | failed e =>
        cases ran
        cases final
        exact comes

/-- A machine that settles when a host answers it settles by itself, or it has to wait. -/
theorem Aligned.stops_of_settlesIn {k : Nat} (aligned : Aligned m)
    (waiting : m.control = .suspend ∨ m.pending = none) (settles : m.SettlesIn k o m') :
    (∃ s, s.outcome? = some o ∧ m.Stops s m') ∨ ∃ m₁, m.Stops .suspended m₁ := by
  induction k using Nat.strongRecOn generalizing m with
  | ind k ih =>
    by_cases asleep : m.control = .suspend
    · exact .inr ⟨m, 1, by rw [Machine.run, Machine.step_asleep asleep]⟩
    · have pending := waiting.resolve_left asleep
      have kept := aligned.step waiting
      obtain ⟨comes, other⟩ := aligned.comes asleep pending
      generalize stepped : m.step = x at kept comes other
      obtain ⟨s₁, m₁⟩ := x
      have last (final : s₁ ≠ .checkpoint) : m.Stops s₁ m₁ := by
        refine ⟨1, ?_⟩
        rw [Machine.run, stepped]
        cases s₁ with
        | checkpoint => exact absurd rfl final
        | _ => rfl
      cases s₁ with
      | checkpoint =>
        have first (limit : Nat) := Machine.run_of_checkpoint stepped limit
        obtain ⟨j, lt, rest⟩ := settles.after comes
        rcases ih j lt kept.aligned kept.waiting rest with ⟨s, final, limit, ran⟩ | ⟨m₂, limit, ran⟩
        · exact .inl ⟨s, final, limit + 1, (first limit).trans ran⟩
        · exact .inr ⟨m₂, limit + 1, (first limit).trans ran⟩
      | suspended => exact absurd rfl other
      | done =>
        obtain ⟨j, settled⟩ := comes
        obtain ⟨rfl, rfl⟩ := settled.unique settles
        exact .inl ⟨.done, rfl, last (by simp)⟩
      | failed e =>
        obtain ⟨j, settled⟩ := comes
        obtain ⟨rfl, rfl⟩ := settled.unique settles
        exact .inl ⟨.failed e, rfl, last (by simp)⟩

end

/-- A patient host drives the run to its end. -/
def Run.Finishes (r : Run) (o : Outcome) (operands : Operands) (scopes : Scopes) : Prop :=
  ∃ limit r', r.finish .unlimited limit = (some o, r') ∧ r'.machine.operands = operands ∧
    r'.machine.scopes = scopes

/-- The machine comes to the end of its run without a host. -/
def Machine.Concludes (m : Machine) (o : Outcome) (operands : Operands) (scopes : Scopes) : Prop :=
  ∃ s m', m.Stops s m' ∧ s.outcome? = some o ∧ m'.operands = operands ∧ m'.scopes = scopes

/-- The run that waits finishes with these operands and scopes, once operations answer at once. -/
def Run.FinishesPrompt (r : Run) (o : Outcome) (operands : Operands) (scopes : Scopes) : Prop :=
  ∃ operands' scopes', r.Finishes o operands' scopes' ∧ operands = operands'.map Value.prompt ∧
    scopes = scopes'.map Value.prompt

section

variable {r : Run} {o : Outcome} {operands : Operands} {scopes : Scopes}

theorem Run.Open.finishes_iff (opened : r.Open) : r.Finishes o operands scopes ↔
    ∃ k m', r.machine.SettlesIn k o m' ∧ m'.operands = operands ∧ m'.scopes = scopes := by
  constructor
  · rintro ⟨limit, r', finished, same⟩
    obtain ⟨k, settles⟩ := settlesIn_of_finishFrom opened finished
    exact ⟨k, r'.machine, settles, same⟩
  · rintro ⟨k, m', settles, same⟩
    obtain ⟨limit, r', finished, rfl⟩ := finishFrom_of_settlesIn 0 opened settles
    exact ⟨limit, r', finished, same⟩

/-- The moves of both machines lead to the same end. -/
theorem Prompted.finishesPrompt_iff {n : Machine} (opened : r.Open)
    (prompted : Prompted r.machine n) : r.FinishesPrompt o operands scopes ↔
      ∃ k n', n.SettlesIn k o n' ∧ n'.operands = operands ∧ n'.scopes = scopes := by
  constructor
  · rintro ⟨operands', scopes', finishes, rfl, rfl⟩
    obtain ⟨k, m', settles, rfl, rfl⟩ := opened.finishes_iff.1 finishes
    obtain ⟨j, o', n', settles', same, own, mirrors⟩ := prompted.settlesAs.1 k o m' settles
    dsimp only at same mirrors
    subst same
    exact ⟨j, n', settles', mirrors.operands, mirrors.scopes⟩
  · rintro ⟨k, n', settles, rfl, rfl⟩
    obtain ⟨j, o', m', settles', same, own, mirrors⟩ := prompted.settlesAs.2 k o n' settles
    dsimp only at same mirrors
    subst same
    exact ⟨m'.operands, m'.scopes, opened.finishes_iff.2 ⟨j, m', settles', rfl, rfl⟩,
      mirrors.operands, mirrors.scopes⟩

theorem Machine.Idle.concludes_iff {m : Machine} (idle : m.Idle) {tokens : List Token}
    (awake : ∀ n, ¬ (m.load tokens).Stops .suspended n) :
    (m.load tokens).Concludes o operands scopes ↔
      ∃ k m', (m.load tokens).SettlesIn k o m' ∧ m'.operands = operands ∧ m'.scopes = scopes := by
  obtain ⟨aligned, waiting⟩ := (Machine.Loaded.program tokens).sound idle
  constructor
  · rintro ⟨s, m', stops, final, same⟩
    obtain ⟨k, settles⟩ := aligned.settlesIn_of_stops waiting stops final
    exact ⟨k, m', settles, same⟩
  · rintro ⟨k, m', settles, same⟩
    rcases aligned.stops_of_settlesIn waiting settles with ⟨s, final, stops⟩ | ⟨n, stops⟩
    · exact ⟨s, m', stops, final, same⟩
    · exact absurd stops (awake n)

theorem Machine.diverges_iff_concludes {m : Machine} (awake : ∀ n, ¬ m.Stops .suspended n) :
    m.Diverges ↔ ∀ o operands scopes, ¬ m.Concludes o operands scopes := by
  rw [Machine.diverges_iff]
  constructor
  · rintro never o operands scopes ⟨s, m', stops, _⟩
    exact never s m' stops
  · intro never s m' stops
    cases s with
    | checkpoint => exact stops.ne_checkpoint rfl
    | suspended => exact awake m' stops
    | done => exact never .completed _ _ ⟨.done, m', stops, rfl, rfl, rfl⟩
    | failed e => exact never (.failed e) _ _ ⟨.failed e, m', stops, rfl, rfl, rfl⟩

theorem Run.unfinished_iff (r : Run) : (∀ limit, (r.finish .unlimited limit).1 = none) ↔
    ∀ o operands scopes, ¬ r.FinishesPrompt o operands scopes := by
  constructor
  · rintro never o _ _ ⟨_, _, ⟨limit, r', finished, _⟩, _⟩
    have none := never limit
    rw [finished] at none
    cases none
  · intro never limit
    cases finished : r.finish .unlimited limit with
    | mk o r' =>
      cases o with
      | none => rfl
      | some o =>
        exact absurd ⟨_, _, ⟨limit, r', finished, rfl, rfl⟩, rfl, rfl⟩ (never o _ _)

end

/-- Waiting for answers that are there is transparent. A patient host that drives a program to its
end on a machine sees the end that it sees on the machine whose operations give those answers at
once. If that machine never has to wait it comes to this end without a host, and it runs on without
an end just when the host does. -/
theorem awaiting_transparent {m : Machine} (idle : m.Idle) (tokens : List Token) :
    (∀ o operands scopes, (Run.start m.prompt tokens).Finishes o operands scopes ↔
      (Run.start m tokens).FinishesPrompt o operands scopes) ∧
    ((∀ n, ¬ (m.prompt.load tokens).Stops .suspended n) →
      (∀ o operands scopes, (m.prompt.load tokens).Concludes o operands scopes ↔
        (Run.start m tokens).FinishesPrompt o operands scopes) ∧
      ((m.prompt.load tokens).Diverges ↔
        ∀ limit, ((Run.start m tokens).finish .unlimited limit).1 = none)) := by
  have opened := idle.opened tokens
  have prompted : Prompted (Run.start m tokens).machine (m.prompt.load tokens) :=
    idle.prompted tokens
  constructor
  · intro o operands scopes
    rw [(idle.prompt.opened tokens).finishes_iff, prompted.finishesPrompt_iff opened]
    rfl
  · intro awake
    have concludes (o : Outcome) (operands : Operands) (scopes : Scopes) :
        (m.prompt.load tokens).Concludes o operands scopes ↔
          (Run.start m tokens).FinishesPrompt o operands scopes := by
      rw [idle.prompt.concludes_iff awake, prompted.finishesPrompt_iff opened]
    refine ⟨concludes, ?_⟩
    rw [Machine.diverges_iff_concludes awake, Run.unfinished_iff]
    simp only [concludes]

/-- A machine with an operation that is awaited although its answer is there. -/
def Machine.hosting : Machine :=
  .new (Registry.standard.register "now" (.await ⟨"now", .ready (.value (.int 1)), none⟩))

/-- The machine after the answer. -/
def Machine.answered (m : Machine) : Machine :=
  { m with operands := m.operands.push (.int 1), checkpoints := m.checkpoints + 1 }

/-- Where answers are given at once the operation pushes its answer. -/
theorem Machine.prompt_now (rest : List Token) :
    (Machine.hosting.prompt.load (⟨.name "now", .none⟩ :: rest)).step =
      (.checkpoint, Machine.hosting.prompt.answered.load rest) := by
  have ran : Exec.token ⟨.name "now", .none⟩ (Machine.hosting.prompt.load rest) = .ok ()
      { Machine.hosting.prompt.load rest with operands := Operands.empty.push (.int 1) } :=
    (Exec.token_of_builtin rfl rfl rfl).trans (Exec.invokeOperation_of_none rfl)
  apply Machine.step_of_turn
  · rfl
  · exact congrArg Machine.afterAdvance (Machine.advance_of_token ran)

/-- An operation that answers at once is the whole program. -/
theorem awaiting_transparent_now :
    Machine.hosting.Idle ∧
      (∀ n, ¬ (Machine.hosting.prompt.load [⟨.name "now", .none⟩]).Stops .suspended n) ∧
      (Run.start .hosting [⟨.name "now", .none⟩]).FinishesPrompt .completed
        (Operands.empty.push (.int 1)) .empty := by
  have idle : Machine.hosting.Idle := ⟨rfl, rfl, rfl, rfl, rfl, rfl⟩
  let after : Machine := Machine.hosting.prompt.answered
  have through : (after.load []).Proceeds (fun _ _ => True) .done after :=
    .more rfl trivial (.last rfl trivial)
  have stops : (Machine.hosting.prompt.load [⟨.name "now", .none⟩]).Stops .done after := by
    refine ⟨2, (Machine.run_of_checkpoint (Machine.prompt_now []) 1).trans ?_⟩
    have last : (after.load []).step = (.done, after) := through.proceed_eq
    rw [Machine.run, last]
  have awake (n : Machine) :
      ¬ (Machine.hosting.prompt.load [⟨.name "now", .none⟩]).Stops .suspended n := by
    intro suspended
    cases (stops.unique suspended).1
  refine ⟨idle, awake, ?_⟩
  obtain ⟨_, transparent⟩ := awaiting_transparent idle [⟨.name "now", .none⟩]
  exact ((transparent awake).1 _ _ _).1 ⟨.done, after, stops, rfl, rfl, rfl⟩

/-- A program that waits for its operation and then sleeps. -/
def nowThenSleep : List Token := [⟨.name "now", .none⟩, ⟨.name "sleep", .none⟩]

/-- A program that sleeps has to wait on both machines: a host drives it to its end, and without one
it does not come to an end. -/
theorem awaiting_sleep :
    Machine.hosting.Idle ∧
      (Run.start .hosting nowThenSleep).Finishes .completed .empty .empty ∧
      ∀ o operands scopes,
        ¬ (Machine.hosting.prompt.load nowThenSleep).Concludes o operands scopes := by
  have idle : Machine.hosting.Idle := ⟨rfl, rfl, rfl, rfl, rfl, rfl⟩
  have slept : Exec.token ⟨.name "sleep", .none⟩ (Machine.hosting.answered.load []) =
      .error (.await ⟨"sleep", .timer 1, some .silent⟩)
        { Machine.hosting.answered.load [] with operands := .empty } :=
    (Exec.token_of_builtin rfl rfl rfl).trans (Exec.invokeOperation_of_error rfl)
  have slept' : Exec.token ⟨.name "sleep", .none⟩ (Machine.hosting.prompt.answered.load []) =
      .error (.await ⟨"sleep", .timer 1, some .silent⟩)
        { Machine.hosting.prompt.answered.load [] with operands := .empty } :=
    (Exec.token_of_builtin rfl rfl rfl).trans (Exec.invokeOperation_of_error rfl)
  refine ⟨idle, ?_, ?_⟩
  · have waits : Exec.token ⟨.name "now", .none⟩ (Machine.hosting.load [⟨.name "sleep", .none⟩]) =
        .error (.await ⟨"now", .ready (.value (.int 1)), none⟩)
          (Machine.hosting.load [⟨.name "sleep", .none⟩]) :=
      (Exec.token_of_builtin rfl rfl rfl).trans (Exec.invokeOperation_of_error rfl)
    have passes {m m' : Machine} {t : Token} {rest : List Token} {a : Pending Value}
        (ran : Exec.token t (m.load rest) = .error (.await a) m') :
        Machine.Moves (m.load (t :: rest)) (m'.interrupt (.await a)).2 :=
      .pass (by simp [Machine.load])
        ((Machine.pass_of_calm rfl).trans (Machine.turn_of_token_error ran)) rfl
    have answered : Machine.Moves _ (Machine.hosting.answered.load [⟨.name "sleep", .none⟩]) :=
      @Machine.Moves.answer
        ((Machine.hosting.load [⟨.name "sleep", .none⟩]).interrupt
          (.await ⟨"now", .ready (.value (.int 1)), none⟩)).2 _ (.value (.int 1)) 0 rfl rfl rfl
    let after : Machine := { Machine.hosting with checkpoints := 2 }
    have woken : Machine.Moves _ (after.load []) :=
      @Machine.Moves.answer
        (({ Machine.hosting.answered.load [] with operands := .empty } : Machine).interrupt
          (.await ⟨"sleep", .timer 1, some .silent⟩)).2 _ .nothing 1 rfl rfl rfl
    have left : Machine.Moves (after.load []) after :=
      .pass (by simp [Machine.load]) (Machine.pass_of_calm rfl) rfl
    have ended : Machine.Ends after .completed after :=
      ⟨by simp [after, Machine.hosting, Machine.new], Machine.pass_of_calm rfl, rfl⟩
    have settles : (Machine.hosting.load nowThenSleep).SettlesIn 5 .completed after :=
      .more (passes waits) (.more answered (.more (passes slept) (.more woken (.more left
        (.last ended)))))
    exact (idle.opened nowThenSleep).finishes_iff.2 ⟨5, after, settles, rfl, rfl⟩
  · rintro o operands scopes ⟨s, m', stops, final, _⟩
    let asleep : Machine :=
      (({ Machine.hosting.prompt.answered.load [] with operands := .empty } : Machine).interrupt
        (.await ⟨"sleep", .timer 1, some .silent⟩)).2
    have second : (Machine.hosting.prompt.answered.load [⟨.name "sleep", .none⟩]).step =
        (.checkpoint, asleep) := Machine.step_of_turn rfl (Machine.turn_of_token_error slept')
    have suspends : (Machine.hosting.prompt.load nowThenSleep).Stops .suspended asleep := by
      refine ⟨3, (Machine.run_of_checkpoint (Machine.prompt_now _) 2).trans ?_⟩
      rw [Machine.run_of_checkpoint second, Machine.run, Machine.step_asleep rfl]
    rw [(suspends.unique stops).1] at final
    cases final

end Catena
