import Catena.Proofs.Unwinding

set_option autoImplicit false

/-!
The turns of a step. A step first heeds what the one before it has left and then deals with frames,
one turn after another, until it reaches a checkpoint or the end of the run. What happens to a frame
during a step is a matter of its turns: a frame may go and another one come to the same place.
-/

namespace Catena

namespace Machine

/-- The step ends here. -/
def ending (x : Step × Machine) : Option Step × Machine := (some x.1, x.2)

/-- What a step comes to when a frame has been dealt with. -/
def afterAdvance : EStateM.Result Signal Machine Tick → Option Step × Machine
  | .ok .internal m => (none, m)
  | .ok .checkpoint m => ending m.checkpoint
  | .error signal m => ending (m.interrupt signal)

/-- Deals with the topmost frame. Nothing is answered if the step goes on. -/
def turn (m : Machine) : Option Step × Machine :=
  match m.frames.pop? with
  | none => ending m.finish
  | some (frame, below) => afterAdvance (Exec.advance frame below m)

def afterSignal : EStateM.Result Signal Machine Unit → Option Step × Machine
  | .ok _ m => (none, m)
  | .error signal m => ending (m.interrupt signal)

/-- Deals with what the step before has left. -/
def heed (m : Machine) : Option Step × Machine :=
  match m.control with
  | .none => (none, m)
  | .suspend => (some .suspended, m)
  | .throw e => ending (raiseError { m with control := .none } e)
  | .break => afterSignal (Exec.leaveLoop { m with control := .none })
  | .tailCall target => afterSignal (Exec.replaceCall target { m with control := .none })

/-- What is left of a step after a turn. -/
def continueWith : Option Step × Machine → Step × Machine
  | (some s, m) => (s, m)
  | (none, m) => m.proceed

theorem turn_of_frames {m : Machine} {f : Frame} {s : Stack Frame}
    (frames : m.frames.toList = f :: s.toList) : m.turn = afterAdvance (Exec.advance f s m) := by
  rw [turn, Stack.pop?_eq_some_iff.2 frames]

theorem proceed_eq_turn (m : Machine) : m.proceed = continueWith m.turn := by
  rw [proceed, turn]
  split
  · next top =>
    simp only [top]
    rfl
  · next frame below top =>
    simp only [top]
    split <;> next ran => rw [ran]; rfl

theorem step_eq_heed (m : Machine) : m.step = continueWith m.heed := by
  rw [step, heed]
  cases m.control with
  | none => rfl
  | suspend => rfl
  | throw e => rfl
  | «break» =>
    simp only
    cases Exec.leaveLoop { m with control := .none } <;> rfl
  | tailCall target =>
    simp only
    cases Exec.replaceCall target { m with control := .none } <;> rfl

/-- The frames are dealt with in turns that each satisfy `R`, up to the end of the step. -/
inductive Proceeds (R : Machine → Machine → Prop) : Machine → Step → Machine → Prop
  | last {m s m'} : m.turn = (some s, m') → R m m' → Proceeds R m s m'
  | more {m m₁ s m'} : m.turn = (none, m₁) → R m m₁ → Proceeds R m₁ s m' → Proceeds R m s m'

/-- A step all of whose turns satisfy `R`. -/
inductive StepsBy (R : Machine → Machine → Prop) : Machine → Step → Machine → Prop
  | last {m s m'} : m.heed = (some s, m') → R m m' → StepsBy R m s m'
  | more {m m₁ s m'} : m.heed = (none, m₁) → R m m₁ → Proceeds R m₁ s m' → StepsBy R m s m'

variable {R : Machine → Machine → Prop} {m m' : Machine} {s : Step}

theorem Proceeds.proceed_eq (proceeds : Proceeds R m s m') : m.proceed = (s, m') := by
  induction proceeds with
  | last turned _ => rw [proceed_eq_turn, turned, continueWith]
  | more turned _ _ ih => rw [proceed_eq_turn, turned, continueWith, ih]

theorem StepsBy.step_eq (steps : StepsBy R m s m') : m.step = (s, m') := by
  cases steps with
  | last heeded _ => rw [step_eq_heed, heeded, continueWith]
  | more heeded _ rest => rw [step_eq_heed, heeded, continueWith, rest.proceed_eq]

theorem step_of_turn (calm : m.heed = (none, m)) (turned : m.turn = (some s, m')) :
    m.step = (s, m') := by
  rw [step_eq_heed, calm, continueWith, proceed_eq_turn, turned, continueWith]

/-- Every step is made of turns. -/
theorem proceeds_proceed (m : Machine) :
    Proceeds (fun _ _ => True) m m.proceed.1 m.proceed.2 := by
  fun_induction proceed m with
  | case1 m top => exact .last (by simp only [turn, top, ending]) trivial
  | case2 m frame below top m₁ ran ih =>
    exact .more (by simp only [turn, top, ran, afterAdvance]) trivial ih
  | case3 m frame below top m₁ ran =>
    exact .last (by simp only [turn, top, ran, afterAdvance, ending]) trivial
  | case4 m frame below top signal m₁ ran =>
    exact .last (by simp only [turn, top, ran, afterAdvance, ending]) trivial

/-- So `StepsBy` asks nothing of a step but what `R` says of its turns. -/
theorem stepsBy_step (m : Machine) : StepsBy (fun _ _ => True) m m.step.1 m.step.2 := by
  rw [step_eq_heed]
  cases heeded : m.heed with
  | mk s m₁ =>
    cases s with
    | some s => exact .last heeded trivial
    | none => exact .more heeded trivial (proceeds_proceed m₁)

section

variable {Q : Machine → Machine → Prop} {n : Machine}
  (turn : ∀ {m n m' x}, Q m n → m.turn = (x, m') → R m m' →
    ∃ n', n.turn = (x, n') ∧ R n n' ∧ Q m' n')
include turn

theorem Proceeds.matched (proceeds : Proceeds R m s m') (related : Q m n) :
    ∃ n', Proceeds R n s n' ∧ Q m' n' := by
  induction proceeds generalizing n with
  | last turned holds =>
    obtain ⟨n', turned', holds', after⟩ := turn related turned holds
    exact ⟨n', .last turned' holds', after⟩
  | more turned holds _ ih =>
    obtain ⟨n₁, turned', holds', next⟩ := turn related turned holds
    obtain ⟨n', rest, after⟩ := ih next
    exact ⟨n', .more turned' holds' rest, after⟩

/-- Of two related machines one makes the step that the other makes, if each part of it is matched
by the same part. -/
theorem StepsBy.matched
    (heed : ∀ {m n m' x}, Q m n → m.heed = (x, m') → R m m' →
      ∃ n', n.heed = (x, n') ∧ R n n' ∧ Q m' n')
    (steps : StepsBy R m s m') (related : Q m n) : ∃ n', StepsBy R n s n' ∧ Q m' n' := by
  cases steps with
  | last heeded holds =>
    obtain ⟨n', heeded', holds', after⟩ := heed related heeded holds
    exact ⟨n', .last heeded' holds', after⟩
  | more heeded holds rest =>
    obtain ⟨n₁, heeded', holds', next⟩ := heed related heeded holds
    obtain ⟨n', rest', after⟩ := rest.matched turn next
    exact ⟨n', .more heeded' holds' rest', after⟩

end

/-- What all turns keep is kept by what is left of a step. -/
theorem Proceeds.preserves {P : Machine → Prop} (proceeds : Proceeds R m s m')
    (turn : ∀ m : Machine, P m → P m.turn.2) (before : P m) : P m' := by
  induction proceeds with
  | @last m s m' turned _ =>
    have after := turn m before
    rwa [turned] at after
  | @more m m₁ s m' turned _ _ ih =>
    have after := turn m before
    rw [turned] at after
    exact ih after

theorem step_preserves {P : Machine → Prop} (heed : ∀ m : Machine, P m → P m.heed.2)
    (turn : ∀ m : Machine, P m → P m.turn.2) (before : P m) : P m.step.2 := by
  have heeded := heed m before
  cases m.stepsBy_step with
  | last ends _ =>
    rw [ends] at heeded
    exact heeded
  | more goes _ rest =>
    rw [goes] at heeded
    exact rest.preserves turn heeded

/-- The step goes on, or it has come to a checkpoint or to a failure. -/
def Passing (x : Option Step × Machine) : Prop := x.1 ≠ some .done ∧ x.1 ≠ some .suspended

theorem passing_raiseError (m : Machine) (e : LocatedError) :
    Passing (ending (m.raiseError e)) := by
  unfold raiseError
  split <;> simp [Passing, ending, checkpoint]

theorem passing_interrupt (m : Machine) (signal : Signal) :
    Passing (ending (m.interrupt signal)) := by
  cases signal with
  | error e => exact m.passing_raiseError _
  | _ => simp [Passing, ending, interrupt, checkpoint]

/-- Dealing with frames is done when there are none left, and no open containers. -/
theorem passing_turn (m : Machine) :
    Passing m.turn ∨ m.frames.toList = [] ∧ m.isCollecting = false ∧ m.turn = (some .done, m) := by
  unfold turn
  cases top : m.frames.pop? with
  | none =>
    simp only [finish]
    split
    · exact .inl (m.passing_raiseError _)
    · next quiet => exact .inr ⟨Stack.pop?_eq_none_iff.1 top, Bool.eq_false_iff.2 quiet, rfl⟩
  | some popped =>
    left
    simp only
    cases Exec.advance popped.1 popped.2 m with
    | error signal m₁ => exact m₁.passing_interrupt signal
    | ok tick m₁ => cases tick <;> simp [Passing, afterAdvance, ending, checkpoint]

theorem passing_heed (m : Machine) :
    Passing m.heed ∨ m.control = .suspend ∧ m.heed = (some .suspended, m) := by
  have signalled (x : EStateM.Result Signal Machine Unit) : Passing (afterSignal x) := by
    cases x with
    | ok _ m₁ => simp [Passing, afterSignal]
    | error signal m₁ => exact m₁.passing_interrupt signal
  unfold heed
  cases m.control with
  | none => simp [Passing]
  | suspend => exact .inr ⟨rfl, rfl⟩
  | throw e => exact .inl (passing_raiseError _ e)
  | «break» => exact .inl (signalled _)
  | tailCall target => exact .inl (signalled _)

end Machine

/-! ### Turns of two machines -/

/-- The machine has no room for the frames that its next turn needs. -/
def Machine.Refuses (m : Machine) : Prop :=
  ∃ frame below, m.frames.pop? = some (frame, below) ∧ Refused (Exec.advance frame below m)

inductive TurnAlike (A B : Ground) (p : Pairing) :
    Option Step × Machine → Option Step × Machine → Prop
  | goesOn {q own own' m n} : p ≤ q → Alike A B q own own' m n → TurnAlike A B p (none, m) (none, n)
  | ends {x y} : StepAlike A B p x y → TurnAlike A B p (Machine.ending x) (Machine.ending y)

variable {A B : Ground} {p : Pairing}

theorem EndAlike.afterAdvance {r s : Registers} {x y : EStateM.Result Signal Machine Tick}
    (ends : EndAlike A B p (fun _ => Eq) r s x y) :
    TurnAlike A B p (Machine.afterAdvance x) (Machine.afterAdvance y) ∨
      (A.frames.length ≠ B.frames.length ∧ Deeper A B (Refused x) (Refused y)) := by
  cases ends with
  | @ok q above above' a b m n le same alike =>
    subst same
    refine .inl ?_
    cases a with
    | internal => exact .goesOn le alike
    | checkpoint => exact .ends (.both le alike.checkpoint)
  | error le same alike => exact .inl (.ends ((alike.interrupt same).lower le))
  | refused depths refused => exact .inr ⟨depths, refused⟩

theorem EndAlike.afterSignal {r s : Registers} {x y : EStateM.Result Signal Machine Unit}
    (ends : EndAlike A B p (fun _ (_ _ : Unit) => True) r s x y) :
    TurnAlike A B p (Machine.afterSignal x) (Machine.afterSignal y) ∨
      (A.frames.length ≠ B.frames.length ∧ Deeper A B (Refused x) (Refused y)) := by
  cases ends with
  | ok le _ alike => exact .inl (.goesOn le alike)
  | error le same alike => exact .inl (.ends ((alike.interrupt same).lower le))
  | refused depths refused => exact .inr ⟨depths, refused⟩

namespace Alike

variable {own own' : List Frame} {m n : Machine}

/-- A turn on a frame above the ground. -/
theorem turn {f g : Frame} (alike : Alike A B p (f :: own) (g :: own') m n) :
    TurnAlike A B p m.turn n.turn ∨
      (A.frames.length ≠ B.frames.length ∧ Deeper A B m.Refuses n.Refuses) := by
  have left : (m.frames.drop 1).toList = own ++ A.frames := by
    simp [alike.frames]
  have right : (n.frames.drop 1).toList = own' ++ B.frames := by
    simp [alike.frames']
  have top : m.frames.pop? = some (f, m.frames.drop 1) := by
    rw [Stack.pop?_eq_some_iff, left, alike.frames]
    rfl
  have top' : n.frames.pop? = some (g, n.frames.drop 1) := by
    rw [Stack.pop?_eq_some_iff, right, alike.frames']
    rfl
  have ends := Parallel.advance alike left right
  simp only [Machine.turn, top, top']
  rcases ends.afterAdvance with turned | ⟨depths, refused⟩
  · exact .inl turned
  · refine .inr ⟨depths, refused.imp (fun left => ?_) fun right => ?_⟩
    · exact ⟨f, _, top, left⟩
    · exact ⟨g, _, top', right⟩

end Alike

section

variable {m m' : Machine} {o : Operation Value} {origin : Origin} {more : List Value}
  {below : Stack Frame} {signal : Signal}

theorem Exec.advance_op : advance (.body (.op o origin :: more)) below m =
    (do invokeOperation o; pure Tick.checkpoint : Exec Tick)
      { m with origin, frames := below.push (.body more) } := rfl

theorem Exec.advance_of_signal
    (raised : Exec.operation o { m with origin, frames := below.push (.body more) } =
      .error signal m') : advance (.body (.op o origin :: more)) below m = .error signal m' := by
  simp only [advance_op, Bind.bind, EStateM.bind, invokeOperation_of_error raised]

/-- Code that runs an operation to its end. -/
theorem Exec.advance_of_operation
    (ran : operation o { m with origin, frames := below.push (.body more) } = .ok none m') :
    advance (.body (.op o origin :: more)) below m = .ok .checkpoint m' := by
  simp only [advance_op, Bind.bind, EStateM.bind, invokeOperation_of_none ran]
  rfl

section

variable (top : m.frames.pop? = some (.body (.op o origin :: more), below))
include top

/-- A turn that runs into an operation which raises a signal. -/
theorem Machine.turn_of_signal
    (raised : Exec.operation o { m with origin, frames := below.push (.body more) } =
      .error signal m') : m.turn = ending (m'.interrupt signal) := by
  rw [turn, top]
  simp only [Exec.advance_of_signal raised]
  rfl

theorem Machine.turn_of_operation
    (ran : Exec.operation o { m with origin, frames := below.push (.body more) } = .ok none m') :
    m.turn = (some .checkpoint, m'.checkpoint.2) := by
  rw [turn, top]
  simp only [Exec.advance_of_operation ran]
  rfl

end

end

/-- A turn that runs into an attempt. -/
theorem Machine.turn_attempt {m : Machine} {origin : Origin} {more code : List Value}
    {below : Stack Frame} {id : Nat} {s : Operands}
    (top : m.frames.pop? = some (.body (.op (.primitive .attempt) origin :: more), below))
    (popped : m.operands.pop = .ok (.quote id code, s)) (room : below.size + 3 ≤ m.maxFrames) :
    m.turn = (some .checkpoint,
      { m with
        origin
        operands := s
        frames := ((below.push (.body more)).push (.attempt s.count)).push (.body code)
        checkpoints := m.checkpoints + 1 }) := by
  have ran := Exec.invokeOperation_attempt
    (m := { m with origin, frames := below.push (.body more) }) popped room
  rw [turn, top]
  simp only [Exec.advance_op, Bind.bind, EStateM.bind, ran]
  rfl

/-! ### Tokens -/

section

variable {m : Machine} {text : String} {b : Builtin Value}

theorem Token.token_name {t : Token} (quotes : m.openQuotes = 0) (params : m.openParams = 0)
    (lexeme : t.lexeme = .name text) :
    Exec.token t m = Exec.resolve text { m with origin := t.origin } := by
  have running : m.isCollecting ≠ true := by simp [Machine.isCollecting, quotes, params]
  simp only [Exec.token, lexeme]
  change (if m.isCollecting then Exec.push _ else Exec.resolve text) _ = _
  rw [if_neg running]

theorem Exec.resolve_of_builtin (found : m.registry.get? text = some b) :
    Exec.resolve text m = Exec.invokeOperation (.builtin b) m := by
  simp only [Exec.resolve, Bind.bind, EStateM.bind, Exec.get_apply, found]

theorem Exec.token_of_builtin {origin : Origin} (quotes : m.openQuotes = 0)
    (params : m.openParams = 0) (found : m.registry.get? text = some b) :
    Exec.token ⟨.name text, origin⟩ m = Exec.invokeOperation (.builtin b) { m with origin } := by
  have found' : ({ m with origin } : Machine).registry.get? text = some b := found
  rw [Token.token_name quotes params rfl, Exec.resolve_of_builtin found']

end

end Catena
