import Catena.Proofs.Failing
import Catena.Proofs.Returning
import Catena.Proofs.Rounds
import Catena.Proofs.Taking

set_option autoImplicit false

/-!
Frames that wait for the code above them. As long as code runs above it, a frame stays what it is,
and so do all frames below it, until its own turn comes or an error, a break or a tail call takes it
away. A run is cut by the turns of such a frame into pieces that happen above it.
-/

namespace Catena

/-- Frames that are neither code nor closures. -/
def Frame.waits : Frame → Bool
  | .program _ | .body _ | .call .. => false
  | _ => true

theorem Frame.attemptHeight?_of_not_waits {f : Frame} (code : f.waits = false) :
    f.attemptHeight? = none := by
  cases f with
  | attempt _ => cases code
  | _ => rfl

/-- What is left of the frames `below` when a signal has taken away all that was above them, and
more of them perhaps. -/
inductive Remnant (below : List Frame) : List Frame → Prop
  | cut {lower : List Frame} : lower <:+ below → Remnant below lower
  | replaced {c d : Closure Value} {floor : Nat} {lower : List Frame} :
      .call d floor :: lower <:+ below → Remnant below (.body c.body :: .call c floor :: lower)

section

variable {f : Frame} {below frames : List Frame}

/-- A frame that waits is not among what is left. -/
theorem Remnant.not_suffix (remnant : Remnant below frames) (waits : f.waits = true) :
    ¬ f :: below <:+ frames := by
  intro upheld
  have longer := upheld.length_le
  cases remnant with
  | cut shorter => exact absurd (Nat.le_trans longer shorter.length_le) (Nat.not_succ_le_self _)
  | replaced shorter =>
    have same := upheld.eq_of_length (Nat.le_antisymm longer (Nat.succ_le_succ shorter.length_le))
    injection same with top
    subst top
    cases waits

theorem suffix_cases {α : Type} {a : α} {lower upper above : List α}
    (shorter : upper <:+ above) (upheld : a :: lower <:+ above) :
    a :: lower <:+ upper ∨ upper <:+ lower := by
  rcases List.suffix_or_suffix_of_suffix upheld shorter with inside | outside
  · exact .inl inside
  · rcases List.suffix_cons_iff.1 outside with rfl | beneath
    · exact .inl (List.suffix_refl _)
    · exact .inr beneath

end

/-! ### What signals take away -/

section

variable (m : Machine)

/-- An error takes away everything down to the nearest attempt. -/
theorem Machine.frames_raiseError (e : LocatedError) :
    ((∀ f ∈ m.frames.toList, f.attemptHeight? = none) ∧
      (m.raiseError e).2.frames.toList = []) ∨
    ∃ above f lower, m.frames.toList = above ++ f :: lower ∧
      (∀ g ∈ above, g.attemptHeight? = none) ∧ f.attemptHeight? ≠ none ∧
      (m.raiseError e).2.frames.toList = lower := by
  rcases exists_split Frame.attemptHeight? m.frames.toList with free |
    ⟨above, f, lower, height, frames, passed, found⟩
  · rw [raiseError_of_passed free]
    exact .inl ⟨free, rfl⟩
  · obtain ⟨below, split, rfl⟩ := Stack.split?_of_append frames passed found
    refine .inr ⟨above, f, _, frames, passed, by simp [found], ?_⟩
    simp only [raiseError, split]
    rfl

theorem Machine.raiseError_suffix (e : LocatedError) :
    (m.raiseError e).2.frames.toList <:+ m.frames.toList := by
  rcases m.frames_raiseError e with ⟨_, after⟩ | ⟨above, f, lower, frames, _, _, after⟩
  · exact after ▸ List.nil_suffix
  · rw [after, frames, List.append_cons]
    exact List.suffix_append _ _

end

/-- An error that goes past some frames leaves nothing above those below them. -/
theorem Machine.not_kept_raiseError {m : Machine} {own below : List Frame}
    (frames : m.frames.toList = own ++ below) (passed : ∀ g ∈ own, g.attemptHeight? = none)
    (e : LocatedError) (f : Frame) : ¬ f :: below <:+ (m.raiseError e).2.frames.toList := by
  intro kept
  have size := size_raiseError frames passed e
  rw [← Stack.length_eq] at size
  exact absurd (Nat.le_trans kept.length_le size) (Nat.not_succ_le_self _)

/-! ### A frame that waits -/

namespace Moment

variable {x y : Moment} {f : Frame} {below F : List Frame}

/-- An error has been thrown, or a break or a tail call has to be dealt with. -/
def Interrupted : Moment → Prop
  | .running m => m.control = .break ∨ ∃ c, m.control = .tailCall c
  | .thrown _ _ => True

/-- These are the frames, and it is the turn of the topmost one. -/
def Rests (F : List Frame) : Moment → Prop
  | .running m => m.control = .none ∧ m.frames.toList = F
  | .thrown _ _ => False

/-- The frames of an act after a signal. -/
theorem frames_ofAct_actAfterSignal (z : EStateM.Result Signal Machine Unit) :
    (ofAct (Machine.actAfterSignal z)).machine.frames = (Exec.left z).frames := by
  cases z with
  | ok a m => rfl
  | error signal m => cases signal <;> rfl

/-- Dealing with a frame leaves those below it alone. -/
theorem suffix_of_calm {m : Machine} (control : m.control = .none)
    (upheld : f :: below <:+ m.frames.toList) (busy : m.frames.toList ≠ f :: below) :
    f :: below <:+ (ofAct m.act).machine.frames.toList := by
  rw [Machine.act]
  simp only [control]
  cases top : m.frames.pop? with
  | none =>
    rw [Stack.pop?_eq_none_iff.1 top] at upheld
    cases List.suffix_nil.1 upheld
  | some r =>
    obtain ⟨g, lower⟩ := r
    have frames := Stack.pop?_eq_some_iff.1 top
    obtain ⟨gone, new, rest, few, reframed⟩ := (Exec.reframes_advance frames).actAfterAdvance
    have beneath : f :: below <:+ lower.toList := by
      rw [frames] at upheld busy
      exact (List.suffix_cons_iff.1 upheld).resolve_left fun same => busy same.symm
    have whole := frames.symm.trans reframed.frames
    have kept : f :: below <:+ rest := by
      rcases List.prefix_cons_iff.1 few with rfl | ⟨none, rfl, nil⟩
      · rw [List.nil_append] at whole
        rw [← whole]
        exact beneath.trans (List.suffix_cons g _)
      · obtain rfl := List.prefix_nil.1 nil
        have same : lower.toList = rest := (List.cons.inj whole).2
        exact same ▸ beneath
    rw [reframed.frames']
    exact kept.trans (List.suffix_append new rest)

/-- A tail call leaves the frames below the closure it replaces. -/
theorem remnant_of_tailCall {m : Machine} {target : Closure Value}
    (control : m.control = .tailCall target) (waits : f.waits = true)
    (upheld : f :: below <:+ m.frames.toList) :
    f :: below <:+ (ofAct m.act).machine.frames.toList ∨
      Remnant below (ofAct m.act).machine.frames.toList := by
  rw [Machine.act]
  simp only [control, frames_ofAct_actAfterSignal]
  rcases Exec.replaceCall_cases { m with control := .none } target with
    ⟨_, failed⟩ | ⟨above, d, floor, lower, frames, _, replaced⟩
  · rw [failed]
    exact .inl upheld
  · have call : .call d floor :: lower <:+ m.frames.toList := ⟨above, frames.symm⟩
    rcases suffix_cases call upheld with inside | outside
    · rcases List.suffix_cons_iff.1 inside with same | beneath
      · injection same with top
        subst top
        cases waits
      · rcases replaced with ⟨_, _, ran, after⟩ | ⟨_, _, ran, after, _⟩ <;> rw [ran]
        · exact .inl (after ▸ beneath.trans (List.suffix_cons _ _))
        · exact .inl (after ▸ beneath.trans ⟨[_, _], rfl⟩)
    · rcases replaced with ⟨_, _, ran, after⟩ | ⟨_, _, ran, after, _⟩ <;> rw [ran]
      · exact .inr (after ▸ .cut outside)
      · exact .inr (after ▸ .replaced outside)

/-- What one moment does to a frame that waits and whose turn it is not. -/
theorem Next.held (next : x.Next y) (waits : f.waits = true)
    (upheld : f :: below <:+ x.machine.frames.toList) (busy : ¬ x.Rests (f :: below)) :
    f :: below <:+ y.machine.frames.toList ∨
      (x.Interrupted ∧ Remnant below y.machine.frames.toList) := by
  cases next with
  | handed e m =>
    exact (suffix_cases (m.raiseError_suffix e) upheld).imp_right fun left => ⟨trivial, .cut left⟩
  | @answered m reply _ =>
    refine .inl ?_
    cases reply <;> exact upheld
  | act m =>
    cases control : m.control with
    | none => exact .inl (suffix_of_calm control upheld fun same => busy ⟨control, same⟩)
    | suspend =>
      rw [Machine.act]
      simp only [control]
      exact .inl upheld
    | throw e =>
      rw [Machine.act]
      simp only [control]
      exact .inl upheld
    | «break» =>
      rw [Machine.act]
      simp only [control, frames_ofAct_actAfterSignal]
      have shorter := Exec.leaveLoop_suffix { m with control := .none }
      exact (suffix_cases shorter upheld).imp_right fun left => ⟨.inl control, .cut left⟩
    | tailCall target =>
      exact (remnant_of_tailCall control waits upheld).imp_right fun left =>
        ⟨.inr ⟨target, control⟩, left⟩

/-- One moment after another, all of it above the frames `F`. -/
abbrev Atop (F : List Frame) : Moment → Moment → Prop :=
  Relation.ReflTransGen fun x y =>
    x.Next y ∧ ¬ x.Rests F ∧ F <:+ x.machine.frames.toList ∧ F <:+ y.machine.frames.toList

theorem Atop.reaches (atop : Atop F x y) : Reaches x y := by
  induction atop with
  | refl => exact .refl
  | tail _ step ih => exact .tail ih step.1

theorem Atop.suffix (atop : Atop F x y) (start : F <:+ x.machine.frames.toList) :
    F <:+ y.machine.frames.toList := by
  cases atop with
  | refl => exact start
  | tail _ step => exact step.2.2.2

/-! ### The turns of a frame -/

/-- There is a frame of a kind on these frames. -/
def Has (kind : Frame → Bool) (below : List Frame) (x : Moment) : Prop :=
  ∃ f, kind f = true ∧ f :: below <:+ x.machine.frames.toList

/-- It is the turn of the frame on these frames. -/
def Turns (below : List Frame) (x : Moment) : Prop := ∃ f, x.Rests (f :: below)

/-- One moment after another, with a frame of a kind on the frames `below`, from `x` on; the list
holds the machines at which its turn came. -/
inductive Tended (kind : Frame → Bool) (below : List Frame) (x : Moment) :
    List Machine → Moment → Prop
  | start : Tended kind below x [] x
  | turn {turns : List Machine} {m : Machine} : Tended kind below x turns (.running m) →
      Has kind below (.running m) → Turns below (.running m) →
      Tended kind below x (turns ++ [m]) (.ofAct m.act)
  | above {turns : List Machine} {y z : Moment} : Tended kind below x turns y → Has kind below y →
      ¬ Turns below y → y.Next z → Tended kind below x turns z

/-- From `start` on, `x` is the last moment with a frame of a kind on the frames `below`, and `y` is
the next. -/
structure Leaves (kind : Frame → Bool) (below : List Frame) (start : Moment) (turns : List Machine)
    (x y : Moment) : Prop where
  tended : Tended kind below start turns x
  there : x.Has kind below
  next : x.Next y
  gone : ¬ y.Has kind below

variable {kind : Frame → Bool}

theorem Rests.of_turns (turns : x.Turns below) (upheld : f :: below <:+ x.machine.frames.toList) :
    x.Rests (f :: below) := by
  obtain ⟨g, rests⟩ := turns
  cases x with
  | thrown e m => cases rests
  | running m =>
    obtain ⟨calm, frames⟩ := rests
    have upheld : f :: below <:+ m.frames.toList := upheld
    rw [frames] at upheld
    exact ⟨calm, frames.trans (upheld.eq_of_length rfl).symm⟩

/-- What happens above a frame takes none of its turns. -/
theorem Tended.atop {turns : List Machine} {start : Moment}
    (tended : Tended kind below start turns x) (is : kind f = true)
    (atop : Atop (f :: below) x y) : Tended kind below start turns y := by
  induction atop with
  | refl => exact tended
  | tail _ step ih =>
    obtain ⟨next, busy, upheld, _⟩ := step
    exact ih.above ⟨f, is, upheld⟩ (fun turn => busy (.of_turns turn upheld)) next

/-- A frame that waits is of its kind until it is gone. -/
theorem not_has_of_remnant (waiting : ∀ f, kind f = true → f.waits = true) {y : Moment}
    (remnant : Remnant below y.machine.frames.toList) : ¬ y.Has kind below := by
  rintro ⟨f, is, upheld⟩
  exact remnant.not_suffix (waiting f is) upheld

/-- What one moment does to a frame whose turn it is not: it stays, or an interruption takes it
away. -/
theorem Next.atop_or (next : x.Next y) (waiting : ∀ f, kind f = true → f.waits = true)
    (is : kind f = true) (upheld : f :: below <:+ x.machine.frames.toList)
    (busy : ¬ x.Turns below) :
    Atop (f :: below) x y ∨ (x.Interrupted ∧ ¬ y.Has kind below) := by
  have other : ¬ x.Rests (f :: below) := fun rests => busy ⟨f, rests⟩
  rcases next.held (waiting f is) upheld other with kept | ⟨cause, left⟩
  · exact .inl (.single ⟨next, other, upheld, kept⟩)
  · exact .inr ⟨cause, not_has_of_remnant waiting left⟩

end Moment

namespace Machine

/-- The machine with other frames. -/
def on (m : Machine) (frames : List Frame) : Machine := { m with frames := .ofList frames }

/-- The machine with other operands and frames. -/
def having (m : Machine) (s : Operands) (frames : List Frame) : Machine :=
  { m with operands := s, frames := .ofList frames }

theorem having_push (m : Machine) (s : Operands) (f : Frame) :
    { m with operands := s, frames := m.frames.push f } = m.having s (f :: m.frames.toList) := by
  have stack : m.frames.push f = .ofList (f :: m.frames.toList) := Stack.ext rfl
  rw [stack]
  rfl

@[simp] theorem on_on (m : Machine) (frames frames' : List Frame) :
    (m.on frames).on frames' = m.on frames' := rfl

theorem on_eq_self {m : Machine} {frames : List Frame} (same : m.frames.toList = frames) :
    m.on frames = m := by
  have stack : Stack.ofList frames = m.frames := Stack.ext same.symm
  rw [on, stack]

theorem not_has_on (m : Machine) (kind : Frame → Bool) (below : List Frame) :
    ¬ (Moment.running (m.on below)).Has kind below := by
  rintro ⟨f, _, upheld⟩
  exact absurd upheld.length_le (Nat.not_succ_le_self _)

theorem actAfterAdvance_thenInternal (x : Exec Unit) (m : Machine) :
    actAfterAdvance ((do x; pure .internal : Exec Tick) m) = actAfterSignal (x m) := by
  simp only [Bind.bind, EStateM.bind]
  cases x m <;> rfl

/-- The frame on top is dealt with. -/
theorem act_of_rests {m : Machine} {f : Frame} {below : List Frame}
    (rests : Moment.Rests (f :: below) (.running m)) :
    m.act = actAfterAdvance (Exec.advance f (.ofList below) m) := by
  obtain ⟨calm, frames⟩ := rests
  have top : m.frames.pop? = some (f, .ofList below) := Stack.pop?_eq_some_iff.2 frames
  exact act_of_top calm top

end Machine

/-! ### Invoking a value -/

namespace Exec

variable {c : Closure Value} {m m' : Machine} {signal : Signal}

theorem floors_of_enter (entered : enter c m = .ok () m') :
    m'.operands.floors = m'.operands.count :: m.operands.floors := by
  obtain ⟨m₁, bound, rfl⟩ := bound_of_enter entered
  exact congrArg _ (absorbs_of_bindParameters bound).floors

theorem floors_of_enter_error (failed : enter c m = .error signal m') :
    m'.operands.floors = m.operands.floors := by
  rcases enter_cases c m with ⟨_, refused⟩ | ⟨_, ⟨_, _, entered⟩ | ⟨_, _, unbound, left⟩⟩
  · cases refused.symm.trans failed
    rfl
  · cases entered.symm.trans failed
  · cases left.symm.trans failed
    have absorbed := absorbed_bindParameters c { m with scopes := m.scopes.enter c.activation }
    rw [unbound] at absorbed
    obtain ⟨⟨_, absorbs⟩, _⟩ := absorbed
    exact absorbs.floors

/-- Code comes on top of the frames as code, or not at all, with the floor that it has as a
closure. -/
theorem adds_code {v : Value} (code : v.isCode = true) (m : Machine) :
    ∃ new, (left (invoke v m)).frames.toList = new ++ m.frames.toList ∧
      (left (invoke v m)).operands.floors = floorsOf new ++ m.operands.floors ∧
      ∀ f ∈ new, f.waits = false := by
  rw [invoke.eq_def]
  cases v with
  | quote id body =>
    simp only
    cases ran : pushFrame (.body body) m with
    | ok a m' =>
      rw [pushFrame_eq_ok ran]
      exact ⟨[.body body], rfl, rfl, List.forall_mem_singleton.2 rfl⟩
    | error signal m' =>
      obtain ⟨_, rfl⟩ := pushFrame_eq_error ran
      exact ⟨[], rfl, rfl, List.forall_mem_nil _⟩
  | closure c =>
    simp only
    cases ran : enter c m with
    | ok a m' =>
      refine ⟨[.body c.body, .call c m'.operands.count], (enter_eq_ok ran).1,
        floors_of_enter ran, ?_⟩
      exact List.forall_mem_cons.2 ⟨rfl, List.forall_mem_singleton.2 rfl⟩
    | error signal m' =>
      have same : m'.frames = m.frames := (enter_eq_error ran).1
      exact ⟨[], congrArg Stack.toList same, floors_of_enter_error ran, List.forall_mem_nil _⟩
  | _ => cases code

end Exec

/-- A value has just been invoked. -/
def Moment.invoking (v : Value) (m : Machine) : Moment :=
  .ofAct (Machine.actAfterSignal (Exec.invoke v m))

/-- What a value does when it is invoked happens above the frames that were there. -/
theorem Moment.suffix_invoking (v : Value) (m : Machine) :
    m.frames.toList <:+ (Moment.invoking v m).machine.frames.toList := by
  obtain ⟨new, adds⟩ := (Exec.launches_invoke v m).adds
  rw [invoking, frames_ofAct_actAfterSignal, adds.frames]
  exact List.suffix_append _ _

theorem Moment.invoking_quote {m : Machine} {id : Nat} {code : List Value}
    (room : m.frames.size < m.maxFrames) :
    Moment.invoking (.quote id code) m = .running (m.on (.body code :: m.frames.toList)) := by
  rw [invoking, Exec.invoke, Exec.pushFrame, if_neg (Nat.not_le.2 room)]
  exact congrArg Moment.running (m.having_push m.operands _)

namespace Machine

/-- A value that is invoked at `m` has come to its end at `m'`: all of it has happened above the
frames of `m`, and they are on top again. -/
structure Invokes (v : Value) (m m' : Machine) : Prop where
  atop : Moment.Atop m.frames.toList (.invoking v m) (.running m')
  rests : Moment.Rests m.frames.toList (.running m')

/-- An act of `m` ends by running the operation `o` at `s`. -/
structure Performs (m : Machine) (o : Operation Value) (s : Machine) : Prop where
  calm : s.control = .none
  act : ∃ tick, m.act = actAfterAdvance ((do Exec.invokeOperation o; pure tick : Exec Tick) s)

/-- What an operation that hands over to nothing has done, if the act goes on. -/
theorem Performs.ran_plain {m s n : Machine} {o : Operation Value} {x : Exec Unit}
    {said : Option Step} (performs : m.Performs o s) (goes : m.act = .goes said n)
    (plain : Exec.operation o = Exec.plain x) (errs : Exec.Errs x) :
    ∃ k, x s = .ok () { n with checkpoints := k } := by
  obtain ⟨tick, act⟩ := performs.act
  rw [goes] at act
  simp only [Bind.bind, EStateM.bind, Exec.invokeOperation_of_plain plain] at act
  cases ran : x s with
  | error signal s' =>
    obtain ⟨e, rfl⟩ := errs s signal s' ran
    rw [ran] at act
    cases act
  | ok a s' =>
    rw [ran] at act
    cases tick <;> cases act <;> exact ⟨_, rfl⟩

/-- A machine with these operands above `nil` and these frames above a body without code, the
topmost first. -/
def staged (operands : List Value) (frames : List Frame) (checkpoints : Nat) : Machine :=
  { registry := .standard
    operands := ⟨.ofList (operands ++ [.nil]), []⟩
    frames := .ofList (frames ++ [.body []])
    nextId := 5
    checkpoints }

end Machine

end Catena
