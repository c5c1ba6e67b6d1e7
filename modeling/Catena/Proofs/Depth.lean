import Catena.Proofs.Failing
import Catena.Proofs.InPlace

set_option autoImplicit false

/-!
The limit on frames. Frames are added one by one, or two at a time for a closure, and each time
there must be room for them. Only a tail call adds code without asking; but the closure that makes
it has not come to its end, so some code of its own stands on its call and gives way to the new one.
What asks in vain for a frame leaves everything as it was.
-/

namespace Catena

/-! ### What stands on a call -/

/-- If something stands on a call, it is code. -/
def Crowned (frames : List Frame) : Prop :=
  ∀ above c floor below, frames = above ++ .call c floor :: below →
    above = [] ∨ ∃ front code, above = front ++ [.body code]

/-- The topmost frame is no call. -/
def Capped (frames : List Frame) : Prop := ∀ f ∈ frames.head?, f.isCall = false

theorem Crowned.of_append {above below : List Frame} (crowned : Crowned (above ++ below)) :
    Crowned below := by
  intro front c floor back split
  rcases crowned (above ++ front) c floor back (by rw [split, List.append_assoc]) with
    none | ⟨upper, code, ended⟩
  · exact .inl (List.append_eq_nil_iff.1 none).2
  · cases front using List.reverseRecOn with
    | nil => exact .inl rfl
    | append_singleton front f =>
      rw [← List.append_assoc] at ended
      obtain ⟨_, same⟩ := List.append_inj' ended rfl
      exact .inr ⟨front, code, by rw [same]⟩

/-- A frame that is no code does not stand on a call. -/
theorem Crowned.capped_below {f : Frame} {below : List Frame} (crowned : Crowned (f :: below))
    (other : ∀ code, f ≠ .body code) : Capped below := by
  intro g top
  cases g with
  | call c floor =>
    obtain ⟨rest, rfl⟩ := List.head?_eq_some_iff.1 top
    rcases crowned [f] c floor rest rfl with none | ⟨front, code, same⟩
    · cases none
    · obtain ⟨_, last⟩ := List.append_inj' (List.nil_append _ |>.trans same) rfl
      exact absurd (List.cons.inj last).1 (other code)
  | _ => rfl

section

variable {f : Frame} {new base below : List Frame}

/-- What comes in the place of the topmost frame, and what is added to it. -/
theorem Crowned.launch (crowned : Crowned (f :: below)) (gives : f.GivesWay base)
    (plain : callsIn base = 0)
    (added : ∀ above c floor rest, new = above ++ .call c floor :: rest →
      ∃ front code, above = front ++ [.body code]) :
    Crowned (new ++ (base ++ below)) := by
  intro above c floor rest split
  rcases append_split split with ⟨mid, upper, _⟩ | ⟨mid, rfl, lower⟩
  · exact .inr (added above c floor mid upper)
  · rcases append_split lower with ⟨mid', upper, _⟩ | ⟨mid', rfl, lowest⟩
    · rw [upper, callsIn_append, callsIn_cons] at plain
      simp only [Frame.isCall, if_true] at plain
      omega
    · refine .inr ?_
      rcases crowned (f :: mid') c floor rest (by rw [lowest, List.cons_append]) with
        none | ⟨front, code, same⟩
      · cases none
      · cases mid' using List.reverseRecOn with
        | nil =>
          obtain ⟨_, last⟩ := List.append_inj' (List.nil_append _ |>.trans same) rfl
          obtain ⟨code', rfl⟩ := gives.2 code (List.cons.inj last).1
          exact ⟨new, code', by rw [List.append_nil]⟩
        | append_singleton mid' g =>
          rw [← List.cons_append] at same
          obtain ⟨_, last⟩ := List.append_inj' same rfl
          refine ⟨new ++ (base ++ mid'), code, ?_⟩
          rw [last]
          simp only [List.append_assoc]

theorem capped_append (plain : callsIn new = 0) (capped : Capped below) :
    Capped (new ++ below) := by
  cases new with
  | nil => exact capped
  | cons g new =>
    intro f top
    obtain rfl : g = f := by simpa using top
    rw [callsIn_cons] at plain
    by_contra call
    rw [Bool.not_eq_false] at call
    rw [if_pos call] at plain
    omega

theorem Crowned.capped_launch (crowned : Crowned (f :: below)) (gives : f.GivesWay base)
    (plain : callsIn base = 0) (none : callsIn new = 0) : Capped (new ++ (base ++ below)) := by
  refine capped_append none ?_
  by_cases code : ∃ code, f = .body code
  · obtain ⟨code, rfl⟩ := code
    obtain ⟨rest, rfl⟩ := gives.2 code rfl
    intro g top
    obtain rfl : .body rest = g := by simpa using top
    rfl
  · refine capped_append plain (crowned.capped_below fun rest same => code ⟨rest, same⟩)

end

/-! ### Within the limit -/

/-- There are no more frames than the limit allows, and calls have nothing but code on them. -/
structure Machine.Roomy (limit : Nat) (m : Machine) : Prop where
  allowed : m.maxFrames = limit
  room : m.frames.size ≤ limit
  crowned : Crowned m.frames.toList

/-- What holds at every moment: moreover, a closure that has made a tail call is not at its end. -/
structure Machine.WithinLimit (limit : Nat) (m : Machine) : Prop extends m.Roomy limit where
  capped : ∀ c, m.control = .tailCall c → Capped m.frames.toList

section

variable {limit : Nat} {m m' : Machine}

section

variable (roomy : m.Roomy limit)
include roomy

theorem Machine.Roomy.withinLimit (calm : m.control = .none) : m.WithinLimit limit :=
  ⟨roomy, fun c other => by rw [calm] at other; cases other⟩

/-- Only the frames and the limit matter. -/
theorem Machine.Roomy.congr (frames : m'.frames = m.frames) (same : m'.maxFrames = m.maxFrames) :
    m'.Roomy limit where
  allowed := same.trans roomy.allowed
  room := by rw [frames]; exact roomy.room
  crowned := by rw [frames]; exact roomy.crowned

/-- Frames have been taken away from the top. -/
theorem Machine.Roomy.taken {above : List Frame}
    (frames : m.frames.toList = above ++ m'.frames.toList) (same : m'.maxFrames = m.maxFrames) :
    m'.Roomy limit where
  allowed := same.trans roomy.allowed
  room := by
    have lengths := congrArg List.length frames
    rw [List.length_append, Stack.length_eq, Stack.length_eq] at lengths
    have room := roomy.room
    omega
  crowned := by
    have crowned := roomy.crowned
    rw [frames] at crowned
    exact crowned.of_append

/-- Something has been launched in the place of the topmost frame. -/
theorem Machine.Roomy.launched {f : Frame} {base : List Frame} {below : Stack Frame} {m₁ : Machine}
    {α : Type} {x : EStateM.Result Signal Machine α} (top : m.frames.toList = f :: below.toList)
    (gives : f.GivesWay base) (plain : callsIn base = 0)
    (frames : m₁.frames.toList = base ++ below.toList) (same : m₁.maxFrames = m.maxFrames)
    (launched : Exec.Launched m₁ x) :
    (Exec.left x).Roomy limit ∧
      ∀ c m', x = .error (.tailCall c) m' → Capped m'.frames.toList := by
  have crowned := roomy.crowned
  rw [top] at crowned
  have room : m₁.frames.size ≤ m₁.maxFrames := by
    have room := roomy.room
    have few := gives.1
    rw [← Stack.length_eq, top, List.length_cons] at room
    rw [same, roomy.allowed, ← Stack.length_eq, frames, List.length_append]
    omega
  constructor
  · obtain ⟨new, adds⟩ := launched.adds
    have kept : (Exec.left x).maxFrames = limit :=
      (congrArg Registers.maxFrames adds.registers).trans (same.trans roomy.allowed)
    refine ⟨kept, kept ▸ adds.room room, ?_⟩
    rw [adds.frames, frames]
    exact crowned.launch gives plain adds.crowned
  · intro c m' raised
    cases launched with
    | called _ _ _ => cases raised
    | @worked new _ adds none =>
      rw [raised] at adds
      rw [show m'.frames.toList = new ++ m₁.frames.toList from adds.frames, frames]
      exact crowned.capped_launch gives plain none

theorem Machine.Roomy.advance {f : Frame} {below : Stack Frame}
    (top : m.frames.toList = f :: below.toList) :
    (Exec.left (Exec.advance f below m)).Roomy limit ∧
      ∀ c m', Exec.advance f below m = .error (.tailCall c) m' → Capped m'.frames.toList := by
  have program (t : Token) (tokens : List Token) :
      (Frame.program (t :: tokens)).GivesWay [.program tokens] :=
    ⟨Nat.le_refl _, by simp⟩
  have advances := Exec.advances_advance top
  generalize Exec.advance f below m = x at advances
  cases advances with
  | launches m₁ base _ bases gives frames same _ _ _ launched =>
    exact roomy.launched top gives (callsIn_of_isInner bases) frames same launched
  | collects t tokens isProgram collects =>
    subst isProgram
    have frames : (Exec.left x).frames.toList = [.program tokens] ++ below.toList := by
      rw [collects.frames]
      rfl
    have same : (Exec.left x).maxFrames = m.maxFrames :=
      congrArg Registers.maxFrames collects.registers
    exact roomy.launched top (program t tokens) rfl frames same (.worked (.refl _) rfl)
  | runs t tokens isProgram _ launched =>
    subst isProgram
    let m₁ : Machine := { m with frames := below.push (.program tokens) }
    have frames : m₁.frames.toList = [.program tokens] ++ below.toList := rfl
    exact roomy.launched top (program t tokens) rfl frames rfl launched
  | leaves ended frames same _ _ =>
    obtain ⟨a, after, rfl⟩ := ended
    have whole : m.frames.toList = [f] ++ after.frames.toList := by
      rw [show after.frames = below from frames]
      exact top
    exact ⟨roomy.taken whole same, fun c m' other => by cases other⟩
  | refuses failed same =>
    obtain ⟨e, after, rfl⟩ := failed
    exact ⟨same ▸ roomy, fun c m' other => by cases other⟩

end

/-! ### Every moment of a run -/

theorem Machine.Roomy.thrown (roomy : m.Roomy limit) (calm : m.control = .none)
    (e : RuntimeError) : (Moment.ofAct (m.signalled (.error e))).machine.WithinLimit limit :=
  roomy.withinLimit calm

/-- A signal that goes on is dealt with in the next step; an error has been thrown. -/
theorem Machine.WithinLimit.signalled {signal : Signal} (roomy : m.Roomy limit)
    (calm : m.control = .none)
    (capped : ∀ c, signal = .tailCall c → Capped m.frames.toList) :
    (Moment.ofAct (m.signalled signal)).machine.WithinLimit limit := by
  cases signal with
  | error e => exact roomy.thrown calm e
  | «break» => exact ⟨roomy.congr rfl rfl, fun c other => by cases other⟩
  | await pending => exact ⟨roomy.congr rfl rfl, fun c other => by cases other⟩
  | tailCall c => exact ⟨roomy.congr rfl rfl, fun _ _ => capped c rfl⟩

theorem Running.advance_withinLimit {f : Frame} {below : Stack Frame} (running : Running m)
    (roomy : m.Roomy limit) (top : m.frames.pop? = some (f, below)) :
    (Moment.ofAct (Machine.actAfterAdvance (Exec.advance f below m))).machine.WithinLimit
      limit := by
  have after := running.advance top
  obtain ⟨kept, capped⟩ := roomy.advance (Stack.pop?_eq_some_iff.1 top)
  generalize Exec.advance f below m = x at after kept capped
  cases x with
  | error signal m' =>
    refine .signalled kept after.control fun c same => ?_
    rw [same] at capped
    exact capped c m' rfl
  | ok tick m' =>
    cases tick with
    | internal => exact Machine.Roomy.withinLimit kept after.control
    | checkpoint =>
      have counted : m'.checkpoint.2.Roomy limit := Machine.Roomy.congr kept rfl rfl
      exact counted.withinLimit after.control

/-- A break takes frames away. -/
theorem Aligned.leaveLoop_withinLimit (aligned : Aligned m) (roomy : m.Roomy limit) :
    (Moment.ofAct (Machine.actAfterSignal
      (Exec.leaveLoop { m with control := .none }))).machine.WithinLimit limit := by
  have cut {above rest : List Frame} (frames : m.frames.toList = above ++ rest) :
      (m.cutTo rest).Roomy limit :=
    roomy.taken frames rfl
  have whole := m.current_append_enclosing.symm
  rcases exists_split (fun f => if f.isLoop then some () else none) m.current with
    free | ⟨above, loop, below, _, current, free, found⟩
  · have passed : ∀ f ∈ m.current, f.isLoop = false := by simpa using free
    rw [aligned.leaveLoop_of_none passed]
    exact (cut whole).thrown rfl .breakOutsideLoop
  · have passed : ∀ f ∈ above, f.isLoop = false := by simpa using free
    have frames : m.frames.toList = above ++ loop :: (below ++ m.enclosing) := by
      rw [whole, current, List.append_assoc, List.cons_append]
    have inner (f : Frame) (member : f ∈ above) : f.isBase = false :=
      Machine.isBase_of_mem_current (current ▸ List.mem_append_left _ member)
    rw [aligned.leaveLoop_of_loop frames inner passed (by simpa using found)]
    have left : m.frames.toList = (above ++ [loop]) ++ (below ++ m.enclosing) := by
      rw [frames, List.append_assoc, List.singleton_append]
    exact (cut left).withinLimit rfl

/-- A tail call adds the code of a closure, but something has given way to it. -/
theorem Aligned.replaceCall_withinLimit (aligned : Aligned m) (pending : m.pending = none)
    (within : m.WithinLimit limit) {c : Closure Value} (control : m.control = .tailCall c) :
    (Moment.ofAct (Machine.actAfterSignal
      (Exec.replaceCall c { m with control := .none }))).machine.WithinLimit limit := by
  have calm : Running { m with control := .none } :=
    ⟨⟨aligned.floors, aligned.layered, aligned.covered, aligned.saved⟩, rfl, pending⟩
  have after := calm.replaceCall c
  rcases exists_split Frame.callFloor? m.frames.toList with free |
    ⟨above, f, below, floor, frames, passed, found⟩
  · rw [Exec.replaceCall_of_passed (m := { m with control := .none }) free]
    have calmed : ({ m with control := .none } : Machine).Roomy limit :=
      within.toRoomy.congr rfl rfl
    exact calmed.thrown rfl _
  · obtain ⟨d, rfl⟩ := Frame.callFloor?_eq_some found
    have given : Crowned (.call d floor :: below) := by
      have crowned := within.crowned
      rw [frames] at crowned
      exact crowned.of_append
    -- The closure is not at its end, so there is something above its call.
    have room : below.length + 2 ≤ limit := by
      have room := within.room
      rw [← Stack.length_eq, frames, List.length_append, List.length_cons] at room
      cases above with
      | nil =>
        have capped := within.capped c control (.call d floor) (by rw [frames]; rfl)
        cases capped
      | cons _ above =>
        rw [List.length_cons] at room
        omega
    rw [aligned.replaceCall_eq frames fun f member =>
      Frame.isCall_of_callFloor?_none (passed f member)] at after ⊢
    generalize entered : ({ m with
      control := .none
      frames := .ofList (.call d floor :: below)
      operands := ⟨m.operands.items, floor :: floorsOf below⟩
      scopes := ⟨c.activation, m.scopes.saved⟩ } : Machine) = n at after
    have steady := Exec.steady_bindParameters c n
    obtain ⟨_, adds, _⟩ := Exec.works_bindParameters c n
    have allowed : (Exec.left (Exec.bindParameters c n)).maxFrames = limit := by
      rw [show (Exec.left (Exec.bindParameters c n)).maxFrames = n.maxFrames from
        congrArg Registers.maxFrames adds.registers, ← entered]
      exact within.allowed
    simp only [Bind.bind, EStateM.bind] at after ⊢
    cases bound : Exec.bindParameters c n with
    | ok a n' =>
      rw [bound] at after allowed
      have gone : (Frame.call d floor).GivesWay [] := ⟨Nat.zero_le _, by simp⟩
      have crowned : Crowned ([.body c.body, .call c floor] ++ ([] ++ below)) :=
        given.launch gone rfl fun _ _ _ _ => Exec.code_above_call
      have roomy : Machine.Roomy limit { n' with
          frames := .ofList (.body c.body :: .call c floor :: below) } :=
        ⟨allowed, room, crowned⟩
      exact roomy.withinLimit after.control
    | error signal n' =>
      rw [bound] at after allowed steady
      obtain ⟨⟨same, _⟩, e, rfl, _⟩ := steady
      have roomy : n'.Roomy limit := by
        refine ⟨allowed, ?_, ?_⟩
        · rw [same, ← entered]
          exact Nat.le_of_succ_le room
        · rw [same, ← entered]
          exact given
      exact roomy.thrown after.control e

/-- An error takes frames away. -/
theorem Running.raiseError_withinLimit (running : Running m) (roomy : m.Roomy limit)
    (e : LocatedError) : (m.raiseError e).2.WithinLimit limit := by
  obtain ⟨gone, rest, reframed⟩ := Machine.reframed_raiseError running.aligned e
  have frames : m.frames.toList = gone ++ (m.raiseError e).2.frames.toList := by
    rw [reframed.frames, reframed.frames']
    rfl
  have same : (m.raiseError e).2.maxFrames = m.maxFrames ∧
      (m.raiseError e).2.control = .none := by
    have kept (above : List Frame) := m.registers_releaseAll above
    cases split : m.frames.split? Frame.attemptHeight? with
    | none =>
      have allowed := congrArg Registers.maxFrames (kept m.frames.toList)
      simp only [Machine.raiseError, split]
      exact ⟨allowed, rfl⟩
    | some found =>
      obtain ⟨above, height, below⟩ := found
      have allowed := congrArg Registers.maxFrames (kept above)
      have control := congrArg Registers.control (kept above)
      simp only [Machine.raiseError, split]
      exact ⟨allowed, control.trans running.control⟩
  exact (roomy.taken frames same.1).withinLimit same.2

theorem Aligned.act_withinLimit (aligned : Aligned m)
    (waiting : m.control = .suspend ∨ m.pending = none) (within : m.WithinLimit limit) :
    (Moment.ofAct m.act).machine.WithinLimit limit := by
  rw [Machine.act]
  cases control : m.control with
  | none =>
    have running : Running m := ⟨aligned, control, waiting.resolve_left (by simp [control])⟩
    simp only
    cases top : m.frames.pop? with
    | none =>
      simp only
      split <;> exact within
    | some r =>
      obtain ⟨f, below⟩ := r
      exact running.advance_withinLimit within.toRoomy top
  | suspend => exact within
  | throw e =>
    exact Machine.Roomy.withinLimit (m := { m with control := .none })
      (within.toRoomy.congr rfl rfl) rfl
  | «break» => exact aligned.leaveLoop_withinLimit within.toRoomy
  | tailCall c =>
    exact aligned.replaceCall_withinLimit (waiting.resolve_left (by simp [control])) within control

end

namespace Moment

variable {limit : Nat} {x y : Moment}

theorem Next.withinLimit (next : x.Next y) (sound : x.Sound)
    (within : x.machine.WithinLimit limit) : y.machine.WithinLimit limit := by
  cases next with
  | act m => exact sound.1.act_withinLimit sound.2 within
  | handed e m => exact Running.raiseError_withinLimit sound within.toRoomy e
  | answered reply asleep =>
    cases reply <;>
      exact ⟨within.toRoomy.congr rfl rfl, fun c other => by cases other⟩

theorem Reaches.withinLimit (reaches : x.Reaches y) (sound : x.Sound)
    (within : x.machine.WithinLimit limit) : y.machine.WithinLimit limit := by
  induction reaches with
  | refl => exact within
  | tail before next ih => exact next.withinLimit (Reaches.sound before sound) ih

end Moment

theorem Machine.Loaded.withinLimit {m₀ m₁ : Machine} (loaded : m₀.Loaded m₁)
    (room : 1 ≤ m₀.maxFrames) : m₁.WithinLimit m₀.maxFrames := by
  have single {f : Frame} (other : f.isCall = false) : Crowned [f] := by
    intro above c floor below split
    have member : .call c floor ∈ [f] := by simp [split]
    rw [← List.mem_singleton.1 member] at other
    cases other
  cases loaded with
  | program tokens => exact ⟨⟨rfl, room, single rfl⟩, fun c other => by cases other⟩
  | value v => exact ⟨⟨rfl, room, single rfl⟩, fun c other => by cases other⟩

/-! ### Asking in vain -/

/-- What is left of a frame when it has taken what it is to run next. -/
def Frame.remainder : Frame → List Frame
  | .program (_ :: tokens) => [.program tokens]
  | .body (_ :: code) => [.body code]
  | .loop code => [.loop code]
  | .iterate source index withIndex code => [.iterate source (index + 1) withIndex code]
  | .condTest ((_, action) :: pairs) => [.condCheck action pairs]
  | _ => []

namespace Exec

variable {m m' : Machine} {below : Stack Frame}

theorem error_of_thenPure {α β : Type} {x : Exec α} {b : β} {signal : Signal}
    (failed : (do let _ ← x; pure b : Exec β) m = .error signal m') : x m = .error signal m' := by
  simp only [Bind.bind, EStateM.bind] at failed
  cases ran : x m with
  | ok a m₁ =>
    rw [ran] at failed
    cases failed
  | error signal₁ m₁ =>
    rw [ran] at failed
    cases failed
    rfl

theorem Steady.ne_depthExceeded {α : Type} {x : Exec α} (steady : Steady x) :
    x m ≠ .error (.error .depthExceeded) m' := by
  intro failed
  have kept := steady m
  rw [failed] at kept
  obtain ⟨_, e, same, other⟩ := kept
  cases same
  exact other rfl

theorem leaveCall_ne_depthExceeded {c : Closure Value} {floor : Nat} :
    leaveCall c floor below m ≠ .error (.error .depthExceeded) m' := by
  intro failed
  simp only [leaveCall, Bind.bind, EStateM.bind] at failed
  rcases checkLeft_cases c m floor with ⟨passed, _⟩ | ⟨⟨e, refused, kind⟩, _⟩
  · rw [passed] at failed
    cases failed
  · rw [refused] at failed
    cases failed
    rcases kind with ⟨text, other⟩ | ⟨text, other⟩ <;> cases other

theorem leaveUpdate_ne_depthExceeded {items : List Value} {field : Field} {types : Scope}
    {floor : Nat} :
    leaveUpdate items field types floor below m ≠ .error (.error .depthExceeded) m' := by
  have steady : Steady (if m.operands.count - floor = 1 then do
      writeField items field types (← pop)
      else fail (.updateCount field.owner field.name (m.operands.count - floor))) := by
    split
    · exact steady_pop.bind fun v => steady_writeField items field types v
    · exact steady_fail (by simp [RuntimeError.updateCount, RuntimeError.depthExceeded])
  exact steady.ne_depthExceeded

theorem withdraws_runBody (body : List Value) : Withdraws (runBody body) := by
  unfold runBody
  split
  · exact (quiet_pure _).spares.withdraws
  · exact ((spares_pushFrame _).then fun _ m => ⟨_, m, rfl⟩).withdraws

/-- Looking at what a test has left never lacks a frame, but its action may. -/
theorem guarded_checkCondition {action : Value} {pairs : List (Value × Value)}
    (failed : checkCondition action pairs below m = .error (.error .depthExceeded) m') :
    Machine.Guarded { m with frames := below } m' := by
  simp only [checkCondition, Bind.bind, EStateM.bind] at failed
  cases popped : pop m with
  | error signal m₁ =>
    rw [popped] at failed
    cases failed
    exact absurd popped steady_pop.ne_depthExceeded
  | ok v m₁ =>
    have kept := quiet_pop m
    rw [popped] at failed kept
    have scopes : m₁.scopes = m.scopes := kept.scopes
    simp only at failed
    split at failed
    · obtain ⟨frames, same⟩ := withdraws_invoke action { m₁ with frames := below } _ m' failed
      exact ⟨frames, same.trans scopes⟩
    · cases failed
    · cases failed

/-- What cannot be entered for want of a frame leaves the rest of the frame that wanted it, and the
guards that were put up for it. -/
theorem guards_of_advance {f : Frame} (top : m.frames.toList = f :: below.toList)
    (failed : advance f below m = .error (.error .depthExceeded) m') :
    f.floor? = none ∧ ∃ guards, (∀ g ∈ guards, g.isGuard = true) ∧
      m'.frames.toList = guards ++ (f.remainder ++ below.toList) ∧ m'.scopes = m.scopes := by
  have stands {m₁ : Machine} (guarded : m₁.Guarded m')
      (frames : m₁.frames.toList = f.remainder ++ below.toList) (scopes : m₁.scopes = m.scopes) :
      ∃ guards, (∀ g ∈ guards, g.isGuard = true) ∧
        m'.frames.toList = guards ++ (f.remainder ++ below.toList) ∧ m'.scopes = m.scopes := by
    obtain ⟨⟨guards, all, added⟩, same⟩ := guarded
    exact ⟨guards, all, frames ▸ added, same.trans scopes⟩
  cases f with
  | program tokens =>
    cases tokens with
    | nil => cases failed
    | cons t tokens =>
      let next : Machine := { m with frames := below.push (.program tokens) }
      have refused : token t next = .error _ m' := error_of_thenPure failed
      exact ⟨rfl, stands (withdraws_token t next _ m' refused) rfl rfl⟩
  | body code =>
    cases code with
    | nil => cases failed
    | cons v code =>
      let next : Machine := { m with frames := below.push (.body code) }
      have refused : value v next = .error _ m' := error_of_thenPure failed
      exact ⟨rfl, stands (withdraws_value v next _ m' refused) rfl rfl⟩
  | call c floor => exact absurd (error_of_thenPure failed) leaveCall_ne_depthExceeded
  | loop body => exact ⟨rfl, stands (withdraws_runBody body m _ m' failed) top rfl⟩
  | iterate source index withIndex body =>
    simp only [advance] at failed
    split at failed
    · let next : Machine :=
        { m with frames := below.push (.iterate source (index + 1) withIndex body) }
      have withdraws := (quiet_pushElement source index withIndex).thenWithdraws fun _ =>
        withdraws_runBody body
      exact ⟨rfl, stands (withdraws next _ m' failed) rfl rfl⟩
    · cases failed
  | condTest pairs =>
    cases pairs with
    | nil => cases failed
    | cons pair pairs =>
      obtain ⟨test, action⟩ := pair
      let next : Machine := { m with frames := below.push (.condCheck action pairs) }
      have refused : invoke test next = .error _ m' := error_of_thenPure failed
      exact ⟨rfl, stands (withdraws_invoke test next _ m' refused) rfl rfl⟩
  | condCheck action pairs =>
    have refused : checkCondition action pairs below m = .error _ m' := error_of_thenPure failed
    exact ⟨rfl, stands (guarded_checkCondition refused) rfl rfl⟩
  | attempt height => cases failed
  | update items field types floor =>
    exact absurd (error_of_thenPure failed) leaveUpdate_ne_depthExceeded

end Exec

theorem floorsOf_remainder (f : Frame) : floorsOf f.remainder = [] := by
  unfold Frame.remainder
  split <;> rfl

/-- The topmost frame `f` of `m` wanted to run something for which there was no room. It has taken
that, some guards have been put up, and otherwise nothing has happened. -/
structure Machine.TurnedAway (f : Frame) (below guards : List Frame) (m thrown : Machine) :
    Prop where
  top : m.frames.toList = f :: below
  guarding : ∀ g ∈ guards, g.isGuard = true
  frames : thrown.frames.toList = guards ++ (f.remainder ++ below)
  floors : thrown.operands.floors = floorsOf guards ++ m.operands.floors
  scopes : thrown.scopes = m.scopes

/-- An error has gone down to the innermost attempt, or there was none. -/
def Machine.Unwinds (thrown after : Machine) : Prop :=
  (∃ above height, thrown.frames.toList = above ++ .attempt height :: after.frames.toList ∧
      ∀ f ∈ above, f.attemptHeight? = none) ∨
    (after.frames.toList = [] ∧ ∀ f ∈ thrown.frames.toList, f.attemptHeight? = none)

theorem Machine.unwinds_raiseError (m : Machine) (e : LocatedError) :
    m.Unwinds (m.raiseError e).2 := by
  rcases exists_split Frame.attemptHeight? m.frames.toList with free |
    ⟨above, f, rest, height, frames, passed, found⟩
  · rw [raiseError_of_passed free]
    exact .inr ⟨rfl, free⟩
  · obtain ⟨below, split, lower⟩ := Stack.split?_of_append frames passed found
    obtain rfl := Frame.attemptHeight?_eq_some found
    simp only [raiseError, split]
    exact .inl ⟨above, height, lower ▸ frames, passed⟩

/-- What throws an error and is not asleep or signalled is a frame. -/
theorem Machine.advance_of_throws {m thrown : Machine} {e : LocatedError}
    (calm : m.control = .none) (throws : m.act = .throws e thrown)
    (other : e.error ≠ .unclosed) :
    ∃ f below, m.frames.toList = f :: Stack.toList below ∧
      Exec.advance f below m = .error (.error e.error) thrown := by
  rw [act] at throws
  simp only [calm] at throws
  cases top : m.frames.pop? with
  | none =>
    simp only [top] at throws
    split at throws <;> cases throws
    exact absurd rfl other
  | some r =>
    obtain ⟨f, below⟩ := r
    simp only [top] at throws
    refine ⟨f, below, Stack.pop?_eq_some_iff.1 top, ?_⟩
    generalize Exec.advance f below m = x at throws
    cases x with
    | ok tick m' => cases tick <;> cases throws
    | error signal m' =>
      cases signal <;> cases throws
      rfl

/-- The limit on frames, in a run on an idle machine that allows for one frame at least. At no
moment are there more frames than it allows, tail calls included. A frame or a closure for which
there is no room leaves the machine as it was. So in a run nothing is left of what has been turned
away, apart from the guards that were put up for it, whose floors are lifted on the way to the next
attempt. -/
theorem frames_within_limit {m₀ m₁ : Machine} (idle : m₀.Idle) (loaded : m₀.Loaded m₁)
    (room : 1 ≤ m₀.maxFrames) :
    (∀ x, Moment.Reaches (.running m₁) x → x.machine.frames.size ≤ m₀.maxFrames) ∧
    (∀ f n n' signal, Exec.pushFrame f n = .error signal n' →
      signal = .error .depthExceeded ∧ n' = n) ∧
    (∀ c n n', Exec.enter c n = .error (.error .depthExceeded) n' → n' = n) ∧
    ∀ m e thrown, Moment.Reaches (.running m₁) (.running m) → m.control = .none →
      m.act = .throws e thrown → e.error = .depthExceeded →
      (∃ f below guards, m.TurnedAway f below guards thrown) ∧
        thrown.Unwinds (thrown.raiseError e).2 ∧
        (thrown.raiseError e).2.operands.floors =
          floorsOf (thrown.raiseError e).2.frames.toList := by
  have sound : (Moment.running m₁).Sound := loaded.sound idle
  refine ⟨fun x reaches => ?_, fun f n n' signal => Exec.pushFrame_eq_error,
    fun c n n' refused => (Exec.enter_eq_error refused).2.2.1 rfl, ?_⟩
  · have within := Moment.Reaches.withinLimit reaches sound (loaded.withinLimit room)
    exact within.room
  · intro m e thrown reaches calm throws kind
    have next := Moment.Next.act m
    rw [throws] at next
    have before : (Moment.running m).Sound := Moment.Reaches.sound reaches sound
    have running : Running thrown := next.sound before
    obtain ⟨f, below, top, failed⟩ := Machine.advance_of_throws calm throws
      (by rw [kind]; simp [RuntimeError.depthExceeded, RuntimeError.unclosed])
    rw [kind] at failed
    obtain ⟨floor, guards, all, frames, scopes⟩ := Exec.guards_of_advance top failed
    refine ⟨⟨f, below.toList, guards, top, all, frames, ?_, scopes⟩,
      thrown.unwinds_raiseError e, ?_⟩
    · rw [running.aligned.floors, before.1.floors, frames, top, floorsOf_append, floorsOf_append,
        floorsOf_remainder, floorsOf_cons, floor]
      rfl
    · exact (running.aligned.raiseError running.pending e).aligned.floors

/-- A machine with room for two frames, and code to be attempted. -/
def Machine.narrow : Machine :=
  { registry := .standard
    operands := ⟨.ofList [.quote 0 [.int 1]], []⟩
    scopes := .empty
    maxFrames := 2
    nextId := 1 }

/-- The machine when the attempt has been put up. -/
def Machine.narrow.guarded : Machine :=
  { Machine.narrow with
    operands := ⟨.empty, []⟩
    frames := .ofList [.attempt 0, .body []] }

theorem Machine.narrow.throws :
    (Machine.narrow.loadValue (.op (.primitive .attempt) .none)).act =
      .throws ⟨.depthExceeded, some .none⟩ guarded := by
  let next : Machine := { Machine.narrow with frames := .ofList [.body []] }
  have ran : Exec.operation (.primitive .attempt) next =
      .ok (some (.quote 0 [.int 1])) guarded := rfl
  have refused : Exec.invoke (.quote 0 [.int 1]) guarded =
      .error (.error .depthExceeded) guarded := by
    rw [Exec.invoke]
    rfl
  have invoked : Exec.invokeOperation (.primitive .attempt) next =
      .error (.error .depthExceeded) guarded :=
    (Exec.invokeOperation_of_some ran).trans refused
  have advanced : Exec.advance (.body [.op (.primitive .attempt) .none]) .empty
      (Machine.narrow.loadValue (.op (.primitive .attempt) .none)) =
      (do Exec.invokeOperation (.primitive .attempt); pure Tick.checkpoint : Exec Tick) next := rfl
  have top : (Machine.narrow.loadValue (.op (.primitive .attempt) .none)).frames.pop? =
      some (.body [.op (.primitive .attempt) .none], .empty) := rfl
  rw [act_of_top rfl top, advanced]
  simp only [Bind.bind, EStateM.bind, invoked]
  rfl

/-- There is room for an attempt, but not for what it is to attempt; so it has nothing to do but to
hand over the error. -/
theorem frames_within_limit_of_attempt :
    ∃ f below, (Machine.narrow.loadValue (.op (.primitive .attempt) .none)).TurnedAway f below
        [.attempt 0] Machine.narrow.guarded ∧
      (Machine.narrow.guarded.raiseError ⟨.depthExceeded, some .none⟩).2.frames.toList =
        [.body []] := by
  have idle : Machine.narrow.Idle := ⟨rfl, rfl, rfl, rfl, rfl, rfl⟩
  obtain ⟨_, _, _, refusals⟩ :=
    frames_within_limit idle (.value (.op (.primitive .attempt) .none)) (by decide)
  obtain ⟨⟨f, below, guards, away⟩, _⟩ := refusals _ _ _ .refl rfl Machine.narrow.throws rfl
  have top := away.top
  cases top
  have frames : [.attempt 0] ++ [.body []] = guards ++ [.body []] := away.frames
  obtain rfl := List.append_cancel_right frames
  exact ⟨_, _, away, rfl⟩

end Catena
