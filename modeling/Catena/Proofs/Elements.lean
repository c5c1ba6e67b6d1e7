import Catena.Proofs.Awaiting
import Catena.Proofs.Breaking
import Catena.Proofs.Failing
import Catena.Proofs.Rounds
import Catena.Proofs.Tidy

set_option autoImplicit false

/-!
What a step consumes. The rounds of a step deal with signals and frames. One that runs an element of
some code has an answer, whatever comes of the element, so it is the last one. In between nothing
can be raised but errors, as tests and actions are not operations; so if no element has been run, a
checkpoint means that a loop without code has gone round, or that an error has been caught.
-/

namespace Catena

/-! ### Elements -/

/-- What code is made of. -/
inductive CodeElement where
  | token (t : Token)
  | value (v : Value)

def CodeElement.run : CodeElement → Exec Unit
  | .token t => Exec.token t
  | .value v => Exec.value v

/-- The first element of some code, and the frame that is left without it. -/
def Frame.first? : Frame → Option (CodeElement × Frame)
  | .program (t :: rest) => some (.token t, .program rest)
  | .body (v :: rest) => some (.value v, .body rest)
  | _ => none

theorem Exec.advance_of_first? {f left : Frame} {e : CodeElement}
    (first : f.first? = some (e, left)) (below : Stack Frame) (m : Machine) :
    advance f below m =
      (do e.run; pure .checkpoint : Exec Tick) { m with frames := below.push left } := by
  cases f with
  | program tokens =>
    cases tokens with
    | nil => cases first
    | cons t rest =>
      cases first
      rfl
  | body code =>
    cases code with
    | nil => cases first
    | cons v rest =>
      cases first
      rfl
  | _ => cases first

namespace Machine

/-- A round of a step, with the elements that it consumes. -/
inductive Round (m : Machine) : List CodeElement → Option Step × Machine → Prop
  | heeds : m.control ≠ .none → Round m [] m.heed
  | ends : m.control = .none → m.frames.pop? = none → Round m [] (ending m.finish)
  /-- The frame is left without its first element, and this is run. -/
  | runs {f below e left} : m.control = .none → m.frames.pop? = some (f, below) →
      f.first? = some (e, left) →
      Round m [e] (afterAdvance
        ((do e.run; pure .checkpoint : Exec Tick) { m with frames := below.push left }))
  | advances {f below} : m.control = .none → m.frames.pop? = some (f, below) → f.first? = none →
      Round m [] (afterAdvance (Exec.advance f below m))

/-- The rounds of a step, with the elements that they consume. -/
inductive Consumes : Machine → List CodeElement → Step → Machine → Prop
  | answers {m taken s m'} : m.Round taken (some s, m') → Consumes m taken s m'
  | again {m taken m₁ more s m'} : m.Round taken (none, m₁) → Consumes m₁ more s m' →
      Consumes m (taken ++ more) s m'

variable {m m₁ m' : Machine} {taken more : List CodeElement} {s : Step} {e : CodeElement}

theorem Round.pass {x : Option Step × Machine} (round : m.Round taken x) : m.pass = x := by
  cases round with
  | heeds control => exact pass_of_control control
  | ends calm empty => rw [pass_of_calm calm, turn, empty]
  | runs calm top first => rw [pass_of_calm calm, turn, top, ← Exec.advance_of_first? first]
  | advances calm top _ => rw [pass_of_calm calm, turn, top]

theorem exists_round (m : Machine) : ∃ taken, m.Round taken m.pass := by
  by_cases calm : m.control = .none
  · cases top : m.frames.pop? with
    | none =>
      have round : m.Round [] _ := .ends calm top
      exact ⟨[], round.pass ▸ round⟩
    | some popped =>
      obtain ⟨f, below⟩ := popped
      cases first : f.first? with
      | none =>
        have round : m.Round [] _ := .advances calm top first
        exact ⟨[], round.pass ▸ round⟩
      | some found =>
        have round : m.Round [found.1] _ := .runs calm top first
        exact ⟨[found.1], round.pass ▸ round⟩
  · have round : m.Round [] _ := .heeds calm
    exact ⟨[], round.pass ▸ round⟩

theorem Round.unique {x y : Option Step × Machine} (first : m.Round taken x)
    (second : m.Round more y) : taken = more := by
  cases first with
  | heeds control =>
    cases second with
    | heeds _ => rfl
    | _ calm => exact absurd calm control
  | ends calm empty =>
    cases second with
    | heeds control => exact absurd calm control
    | ends _ _ => rfl
    | _ _ top => cases empty.symm.trans top
  | runs calm top first =>
    cases second with
    | heeds control => exact absurd calm control
    | ends _ empty => cases empty.symm.trans top
    | runs _ top' first' =>
      cases top.symm.trans top'
      cases first.symm.trans first'
      rfl
    | advances _ top' none =>
      cases top.symm.trans top'
      cases none.symm.trans first
  | advances calm top none =>
    cases second with
    | heeds control => exact absurd calm control
    | ends _ empty => cases empty.symm.trans top
    | runs _ top' first =>
      cases top.symm.trans top'
      cases none.symm.trans first
    | advances _ _ _ => rfl

/-- A round that goes on has consumed nothing. -/
theorem Round.eq_nil (round : m.Round taken (none, m')) : taken = [] := by
  generalize answer : (none, m') = x at round
  cases round with
  | @runs f below e left calm top first =>
    simp only [Bind.bind, EStateM.bind] at answer
    cases ran : e.run { m with frames := below.push left } with
    | ok _ m₁ =>
      rw [ran] at answer
      cases answer
    | error signal m₁ =>
      rw [ran] at answer
      cases answer
  | _ => rfl

theorem Round.length_le {x : Option Step × Machine} (round : m.Round taken x) :
    taken.length ≤ 1 := by
  cases round with
  | runs _ _ _ => exact Nat.le_refl 1
  | _ => exact Nat.zero_le 1

theorem Consumes.length_le (consumes : m.Consumes taken s m') : taken.length ≤ 1 := by
  induction consumes with
  | answers round => exact round.length_le
  | again round _ ih =>
    rw [round.eq_nil, List.nil_append]
    exact ih

theorem Loops.consumes {n : Nat} (loops : Loops m n s m') : ∃ taken, m.Consumes taken s m' := by
  induction loops with
  | @answers m _ _ passed =>
    obtain ⟨taken, round⟩ := m.exists_round
    rw [passed] at round
    exact ⟨taken, .answers round⟩
  | @again _ m _ _ _ passed _ ih =>
    obtain ⟨taken, round⟩ := m.exists_round
    obtain ⟨more, rest⟩ := ih
    rw [passed] at round
    exact ⟨taken ++ more, .again round rest⟩

theorem Consumes.unique {t : Step} {n : Machine} (first : m.Consumes taken s m')
    (second : m.Consumes more t n) : taken = more ∧ s = t ∧ m' = n := by
  induction first generalizing more with
  | answers round =>
    cases second with
    | answers round' =>
      cases round.pass.symm.trans round'.pass
      exact ⟨round.unique round', rfl, rfl⟩
    | again round' _ => cases round.pass.symm.trans round'.pass
  | again round _ ih =>
    cases second with
    | answers round' => cases round.pass.symm.trans round'.pass
    | again round' rest =>
      cases round.pass.symm.trans round'.pass
      obtain ⟨same, answer⟩ := ih rest
      exact ⟨by rw [round.unique round', same], answer⟩

/-! ### Checkpoints -/

/-- A checkpoint has been counted exactly if it is the answer. -/
def Counted (before : Machine) (x : Option Step × Machine) : Prop :=
  x.2.checkpoints = before.checkpoints + if x.1 = some .checkpoint then 1 else 0

theorem Consumes.counted (consumes : m.Consumes taken s m') : m.Counted (some s, m') := by
  induction consumes with
  | @answers m _ _ _ round =>
    have tallied := m.tallied_pass
    rw [round.pass] at tallied
    exact tallied.checkpoints
  | @again m _ m₁ _ _ _ round _ ih =>
    have tallied := m.tallied_pass
    rw [round.pass] at tallied
    have same : m₁.checkpoints = m.checkpoints := tallied.checkpoints
    rwa [Counted, same] at ih

end Machine

/-! ### Between elements -/

namespace Exec

variable {α β : Type} {m m' : Machine}

theorem errs_enter (c : Closure Value) : Errs (enter c) :=
  fun _ _ _ failed => (enter_eq_error failed).2.2.2

/-- Only operations can raise other signals. -/
theorem errs_invoke {v : Value} (data : v.isOp = false) : Errs (invoke v) := by
  intro m signal m' failed
  cases v with
  | op o origin => cases data
  | quote id code =>
    rw [invoke] at failed
    exact errs_pushFrame _ m signal m' failed
  | closure c =>
    rw [invoke] at failed
    exact errs_enter c m signal m' failed
  | array id items =>
    simp only [invoke] at failed
    exact errs_fail _ m signal m' failed
  | _ =>
    rw [Parallel.invoke_of_isPlain rfl] at failed
    exact errs_fail _ m signal m' failed

theorem errs_leaveCall (c : Closure Value) (floor : Nat) (below : Stack Frame) :
    Errs (leaveCall c floor below) := by
  intro m signal m' failed
  have gone := leaveCall_gone c floor below m
  rw [failed] at gone
  exact gone.2

theorem errs_leaveUpdate (items : List Value) (field : Field) (types : Scope) (floor : Nat)
    (below : Stack Frame) : Errs (leaveUpdate items field types floor below) := by
  intro m signal m' failed
  have gone := leaveUpdate_gone items field types floor below m
  rw [failed] at gone
  exact gone.2

theorem errs_pushElement (source : Source) (index : Nat) (withIndex : Bool) :
    Errs (pushElement source index withIndex) := by
  refine (errs_modify _).bind fun _ => ?_
  cases withIndex with
  | true => exact errs_modify _
  | false => exact errs_pure ()

theorem errs_runBody (body : List Value) : Errs (runBody body) := by
  unfold runBody
  split
  · exact errs_pure _
  · exact (errs_pushFrame _).bind fun _ => errs_pure _

theorem errs_checkCondition {action : Value} (data : action.isOp = false)
    (rest : List (Value × Value)) (below : Stack Frame) :
    Errs (checkCondition action rest below) := by
  refine steady_pop.errs.bind fun v => ?_
  split
  · exact (errs_modify _).bind fun _ => errs_invoke data
  · exact errs_modify _
  · exact errs_fail _

theorem errs_advance {f : Frame} (none : f.first? = none) (obeys : f.Obeys .tidy)
    (below : Stack Frame) : Errs (advance f below) := by
  have ends {x : Exec Unit} (errs : Errs x) (tick : Tick) :
      Errs (do x; pure tick : Exec Tick) :=
    errs.bind fun _ => errs_pure tick
  cases f with
  | program tokens =>
    cases tokens with
    | nil => exact ends (errs_modify _) _
    | cons t rest => cases none
  | body code =>
    cases code with
    | nil => exact ends (errs_modify _) _
    | cons v rest => cases none
  | call c floor => exact ends (errs_leaveCall c floor below) _
  | loop body => exact errs_runBody body
  | iterate source index withIndex body =>
    unfold advance
    dsimp only
    split
    · exact (errs_modify _).bind fun _ =>
        (errs_pushElement source index withIndex).bind fun _ => errs_runBody body
    · exact ends (errs_modify _) _
  | condTest pairs =>
    cases pairs with
    | nil => exact ends (errs_modify _) _
    | cons pair rest =>
      have test := (List.forall_mem_cons.1 obeys).1.isOp_eq_false
      exact (errs_modify _).bind fun _ => ends (errs_invoke test) _
  | condCheck action pairs =>
    exact ends (errs_checkCondition obeys.1.isOp_eq_false pairs below) _
  | attempt height => exact ends (errs_modify _) _
  | update items field types floor =>
    exact ends (errs_leaveUpdate items field types floor below) _

theorem errs_leaveLoop : Errs leaveLoop := by
  intro m signal m' failed
  unfold leaveLoop at failed
  split at failed <;> cases failed <;> exact ⟨_, rfl⟩

theorem errs_replaceCall (target : Closure Value) : Errs (replaceCall target) := by
  refine steady_get.errs.bind fun m => ?_
  split
  · exact errs_fail _
  · refine Errs.bind (fun _ _ _ failed => by cases failed) fun _ => ?_
    refine (errs_modify _).bind fun _ => (errs_modify _).bind fun _ => ?_
    exact (steady_bindParameters target).errs.bind fun _ => errs_modify _

end Exec

/-- A loop that has no code and is not at its end. -/
inductive Frame.LoopsEmpty : Frame → Prop
  | loop : LoopsEmpty (.loop [])
  | iterate {source index withIndex} : index < source.length →
      LoopsEmpty (.iterate source index withIndex [])

/-- A round of a loop is a checkpoint only if there is no code to run. -/
theorem Exec.nil_of_runBody {body : List Value} {m m' : Machine}
    (ran : runBody body m = .ok .checkpoint m') : body = [] := by
  unfold runBody at ran
  split at ran
  · next none => exact List.isEmpty_iff.1 none
  · obtain ⟨_, _, _, last⟩ := bind_eq_ok ran
    cases last

theorem Exec.loopsEmpty_of_checkpoint {f : Frame} {below : Stack Frame} {m m' : Machine}
    (none : f.first? = none) (ran : advance f below m = .ok .checkpoint m') : f.LoopsEmpty := by
  have goes {x : Exec Unit} (ran : (do x; pure .internal : Exec Tick) m = .ok .checkpoint m') :
      f.LoopsEmpty := by
    obtain ⟨_, _, _, last⟩ := bind_eq_ok ran
    cases last
  cases f with
  | program tokens =>
    cases tokens with
    | nil => exact goes ran
    | cons t rest => cases none
  | body code =>
    cases code with
    | nil => exact goes ran
    | cons v rest => cases none
  | call c floor => exact goes ran
  | loop body =>
    obtain rfl := nil_of_runBody ran
    exact .loop
  | iterate source index withIndex body =>
    unfold advance at ran
    dsimp only at ran
    split at ran
    · next more =>
      obtain ⟨_, _, _, rest⟩ := bind_eq_ok ran
      obtain ⟨_, _, _, last⟩ := bind_eq_ok rest
      obtain rfl := nil_of_runBody last
      exact .iterate more
    · exact goes ran
  | condTest pairs =>
    cases pairs with
    | nil => exact goes ran
    | cons pair rest =>
      obtain ⟨_, _, _, last⟩ := bind_eq_ok ran
      obtain ⟨_, _, _, last⟩ := bind_eq_ok last
      cases last
  | condCheck action pairs => exact goes ran
  | attempt height => exact goes ran
  | update items field types floor => exact goes ran

namespace Machine

variable {m m' now : Machine} {taken : List CodeElement} {s : Step}

/-- Where nothing is consumed, a checkpoint that is not an error's is that of a loop. -/
theorem Round.loopsEmpty (round : m.Round [] (some .checkpoint, m'))
    (tidy : ∀ f ∈ m.frames.toList, f.Obeys .tidy) (goes : m.act = .goes (some .checkpoint) m') :
    m.control = .none ∧ ∃ f below, m.frames.toList = f :: below ∧ f.LoopsEmpty := by
  -- A signal other than an error would be a checkpoint of its own.
  have raises {x : EStateM.Result Signal Machine Unit}
      (direct : ∀ signal m', x = .error signal m' → ∃ e, signal = .error e) :
      actAfterSignal x ≠ .goes (some .checkpoint) m' := by
    intro same
    cases x with
    | ok _ m₁ => cases same
    | error signal m₁ =>
      obtain ⟨e, rfl⟩ := direct signal m₁ rfl
      cases same
  rw [act] at goes
  cases control : m.control with
  | suspend =>
    rw [control] at goes
    cases goes
  | throw e =>
    rw [control] at goes
    cases goes
  | «break» =>
    rw [control] at goes
    exact absurd goes (raises (Exec.errs_leaveLoop _))
  | tailCall target =>
    rw [control] at goes
    exact absurd goes (raises (Exec.errs_replaceCall target _))
  | none =>
    refine ⟨rfl, ?_⟩
    rw [control] at goes
    cases top : m.frames.pop? with
    | none =>
      rw [top] at goes
      simp only at goes
      split at goes <;> cases goes
    | some popped =>
      obtain ⟨f, below⟩ := popped
      have frames := Stack.pop?_eq_some_iff.1 top
      have none : f.first? = none := by
        cases first : f.first? with
        | none => rfl
        | some found => cases round.unique (.runs control top first)
      have own : f.Obeys .tidy := tidy f (by simp [frames])
      simp only [top] at goes
      refine ⟨f, below.toList, frames, ?_⟩
      cases ran : Exec.advance f below m with
      | error signal m₁ =>
        obtain ⟨e, rfl⟩ := Exec.errs_advance none own below m _ _ ran
        rw [ran] at goes
        cases goes
      | ok tick m₁ =>
        cases tick with
        | internal =>
          rw [ran] at goes
          cases goes
        | checkpoint => exact Exec.loopsEmpty_of_checkpoint none ran

/-- The last round of a step is within it. -/
theorem Consumes.exists_last (consumes : m.Consumes taken s m') :
    ∃ now last, m.Within now ∧ now.Round last (some s, m') ∧ last <:+ taken := by
  induction consumes with
  | answers round => exact ⟨_, _, .here _, round, List.suffix_rfl⟩
  | again round _ ih =>
    obtain ⟨now, last, within, answers, part⟩ := ih
    exact ⟨now, last, .next (goes_of_pass round.pass) within, answers,
      part.trans (List.suffix_append _ _)⟩

theorem Within.moves (within : m.Within now) : m.Reaches now := by
  induction within with
  | here m => exact .refl
  | @next m m₁ m₂ goes _ ih =>
    have awake : m.control ≠ .suspend := by
      intro asleep
      rw [act, asleep] at goes
      cases goes
    exact .head (.pass awake (pass_of_goes goes) rfl) ih

/-- The step has gone through an iteration of a loop without code. -/
def Iterates (m after : Machine) : Prop :=
  ∃ now f below, m.Within now ∧ now.control = .none ∧ now.frames.toList = f :: below ∧
    f.LoopsEmpty ∧ now.pass = (some .checkpoint, after)

/-- The step has thrown an error, and an attempt has caught it. -/
def Catches (m after : Machine) : Prop :=
  ∃ e thrown height above below, m.Throws e thrown ∧
    thrown.frames.toList = above ++ .attempt height :: below ∧
    (∀ f ∈ above, f.attemptHeight? = none) ∧ thrown.Caught e height above below after

/-- The run comes to this state, which may be the one that it ends in. -/
def Attains (start m : Machine) : Prop :=
  start.Reaches m ∨ ∃ before o, start.Reaches before ∧ before.Ends o m

theorem iterates_or_catches (sound : (Moment.running m).Sound) (rooted : m.Rooted)
    (tidy : ∀ now, m.Within now → ∀ f ∈ now.frames.toList, f.Obeys .tidy)
    (consumes : m.Consumes [] .checkpoint m') : m.Iterates m' ∨ m.Catches m' := by
  obtain ⟨now, last, within, round, part⟩ := consumes.exists_last
  obtain rfl := List.suffix_nil.1 part
  have result := now.act_result.trans round.pass
  cases acted : now.act with
  | goes said m₁ =>
    rw [acted] at result
    cases result
    obtain ⟨calm, f, below, frames, loops⟩ := round.loopsEmpty (tidy now within) acted
    exact .inl ⟨now, f, below, within, calm, frames, loops, round.pass⟩
  | throws e thrown =>
    rw [acted] at result
    have way : Moment.Reaches (.running m) (.thrown e thrown) := by
      have next := Moment.Next.act now
      rw [acted] at next
      exact within.reaches.tail next
    have running : Running thrown := way.sound sound
    rcases exists_split Frame.attemptHeight? thrown.frames.toList with
      free | ⟨above, f, below, height, frames, passed, found⟩
    · simp only [Act.result, raiseError_of_passed free] at result
      cases result
    · cases f with
      | attempt height =>
        obtain ⟨after, raised, caught⟩ :=
          running.caught (way.rooted sound rooted) frames passed e
        simp only [Act.result, raised] at result
        cases result
        exact .inr ⟨e, thrown, _, above, below, ⟨now, within, acted⟩, frames, passed, caught⟩
      | _ => cases found

theorem Ends.frames_eq_nil {o : Outcome} (ends : m.Ends o m') : m'.frames.toList = [] := by
  cases ends with
  | @intro said _ _ awake passed ended =>
    have rests : ∃ before, Rests before (said, m') := by
      by_cases calm : m.control = .none
      · have carries := carries_turn calm
        rw [← pass_of_calm calm, passed] at carries
        exact ⟨_, carries⟩
      · have carries := carries_heed awake
        rw [← pass_of_control calm, passed] at carries
        exact ⟨_, carries⟩
    obtain ⟨_, rests⟩ := rests
    cases rests with
    | pauses _ _ => cases ended
    | stops _ _ => cases ended
    | ends empty _ _ => exact List.isEmpty_iff.1 empty
    | fails empty _ _ => exact List.isEmpty_iff.1 empty

/-- Without frames there is nothing to go on with. -/
theorem Within.eq_of_nil (within : m.Within now) (empty : m.frames.toList = []) : now = m := by
  cases within with
  | here => rfl
  | @next _ m₁ _ goes _ =>
    exfalso
    have free {β : Type} (read? : Frame → Option β) :
        ∀ f ∈ ({ m with control := .none } : Machine).frames.toList, read? f = none := by
      change ∀ f ∈ m.frames.toList, _
      rw [empty]
      exact List.forall_mem_nil _
    rw [act] at goes
    cases control : m.control with
    | none =>
      have top := Stack.pop?_eq_none_iff.2 empty
      simp only [control, top] at goes
      split at goes <;> cases goes
    | suspend =>
      rw [control] at goes
      cases goes
    | throw e =>
      rw [control] at goes
      cases goes
    | «break» =>
      simp only [control, Exec.leaveLoop_of_passed (free _)] at goes
      cases goes
    | tailCall target =>
      simp only [control, Exec.replaceCall_of_passed (free _)] at goes
      cases goes

section

variable {tokens : List Token} {maxFrames : Nat} {report : Option Report}

theorem Attains.sound (attains : ((pristine maxFrames report).load tokens).Attains m) :
    (Moment.running m).Sound ∧ m.Rooted := by
  have idle := idle_pristine maxFrames report
  rcases attains with reaches | ⟨before, o, reaches, ends⟩
  · exact Reaches.sound idle reaches
  · obtain ⟨sound, rooted⟩ := Reaches.sound idle reaches
    cases ends with
    | intro _ passed _ =>
      have way := Moment.reaches_of_last (before.act_result.trans passed)
      exact ⟨way.sound sound, way.rooted sound rooted⟩

theorem Attains.tidy (attains : ((pristine maxFrames report).load tokens).Attains m)
    (within : m.Within now) : ∀ f ∈ now.frames.toList, f.Obeys .tidy := by
  rcases attains with reaches | ⟨before, o, _, ends⟩
  · intro f member
    have further := reaches.trans within.moves
    cases kind : f.isProgram with
    | true =>
      cases f with
      | program _ => trivial
      | _ => cases kind
    | false =>
      obtain ⟨_, rooted⟩ := Reaches.sound (idle_pristine maxFrames report) further
      have quiet : now.isCollecting = false := by
        apply Bool.eq_false_iff.2
        intro collecting
        cases kind.symm.trans (rooted.alone collecting f member)
      exact (Reaches.obeys_tidy further quiet).frames f member
  · obtain rfl := within.eq_of_nil ends.frames_eq_nil
    rw [ends.frames_eq_nil]
    exact List.forall_mem_nil _

end

end Machine

/-- In every state of a run, the one that it ends in included, a step consumes at most one element
of some code. It counts a checkpoint exactly if it answers with one. If there is a checkpoint and no
element has been consumed, a loop without code has gone round or an attempt has caught an error. -/
theorem step_consumes_at_most_one {tokens : List Token} {maxFrames : Nat} {report : Option Report}
    {m : Machine} (attains : ((Machine.pristine maxFrames report).load tokens).Attains m) :
    ∃ taken, (∀ other s m', m.Consumes other s m' ↔
        other = taken ∧ s = m.step.1 ∧ m' = m.step.2) ∧
      taken.length ≤ 1 ∧
      m.step.2.checkpoints = m.checkpoints + (if m.step.1 = .checkpoint then 1 else 0) ∧
      (taken = [] → m.step.1 = .checkpoint →
        m.Iterates m.step.2 ∨ m.Catches m.step.2) := by
  obtain ⟨n, loops⟩ := m.loops_step
  obtain ⟨taken, consumes⟩ := loops.consumes
  refine ⟨taken, fun other s m' => ⟨fun also => also.unique consumes, ?_⟩, consumes.length_le, ?_,
    fun none checkpoint => ?_⟩
  · rintro ⟨rfl, rfl, rfl⟩
    exact consumes
  · have counted := consumes.counted
    simpa only [Machine.Counted, Option.some.injEq] using counted
  · rw [none, checkpoint] at consumes
    obtain ⟨sound, rooted⟩ := attains.sound
    exact Machine.iterates_or_catches sound rooted (fun _ => attains.tidy) consumes

/-- The program `{ { 1 } loop } try`. -/
def attemptedLoop : List Token :=
  [⟨.opening .quote, .none⟩, ⟨.opening .quote, .none⟩, ⟨.int 1, .none⟩, ⟨.closing .quote, .none⟩,
    ⟨.name "loop", .none⟩, ⟨.closing .quote, .none⟩, ⟨.name "try", .none⟩]

/-- With room for four frames there is one for the loop, but none for its code. The step that finds
this out consumes nothing and ends at a checkpoint, as the error is caught. -/
theorem step_consumes_at_most_one_of_loop :
    ∃ m m', ((Machine.pristine 4 none).load attemptedLoop).Attains m ∧
      m.frames.toList = [.loop [.int 1], .body [], .attempt 0, .program []] ∧
      m.Consumes [] .checkpoint m' ∧ m.step = (.checkpoint, m') ∧
      m'.checkpoints = m.checkpoints + 1 ∧ m.Catches m' := by
  let start := (Machine.pristine 4 none).load attemptedLoop
  let code : List Value := [.quote 0 [.int 1], .op (.primitive .loop) .none]
  let having (operands : List Value) (checkpoints : Nat) : Machine :=
    { Machine.pristine 4 none with operands := ⟨.ofList operands, []⟩, nextId := 2, checkpoints }
  let quoted := (having [.quote 1 code] 6).load [⟨.name "try", .none⟩]
  let tried : Machine := { having [] 7 with
    frames := .ofList [.body code, .attempt 0, .program []] }
  let pushed : Machine := { having [.quote 0 [.int 1]] 8 with
    frames := .ofList [.body code.tail, .attempt 0, .program []] }
  let looping : Machine := { having [] 9 with
    frames := .ofList [.loop [.int 1], .body [], .attempt 0, .program []] }
  let caught := (having [.error ⟨.depthExceeded, some .none⟩] 10).load []
  have gathered : start.Reaches quoted := by
    iterate 6 refine .head (.pass nofun rfl rfl) ?_
    exact .refl
  have attempts : quoted.Moves tried := by
    refine .pass (s := some .checkpoint) nofun ?_ rfl
    have ran : Exec.token ⟨.name "try", .none⟩ (quoted.load []) =
        .ok () { tried with checkpoints := 6 } :=
      (Exec.token_of_builtin rfl rfl rfl).trans (Exec.invokeOperation_attempt rfl (by decide))
    exact congrArg Machine.afterAdvance (Machine.advance_of_token ran)
  have loops : pushed.Moves looping := by
    refine .pass (s := some .checkpoint) nofun ?_ rfl
    have ran : Exec.operation (.primitive .loop)
        { pushed with frames := .ofList [.body [], .attempt 0, .program []] } =
        .ok none { looping with checkpoints := 8 } := rfl
    exact Machine.turn_of_operation (m := pushed) rfl ran
  have reaches : start.Reaches looping :=
    ((gathered.tail attempts).tail (.pass nofun rfl rfl)).tail loops
  have throws : looping.act = .throws ⟨.depthExceeded, some .none⟩ { looping with } := rfl
  obtain ⟨taken, steps, _, counted, outcome⟩ := step_consumes_at_most_one (.inl reaches)
  have consumes : looping.Consumes [] .checkpoint caught := by
    have round : looping.Round [] _ := .advances (f := .loop [.int 1]) rfl rfl rfl
    have passed : looping.pass = (some .checkpoint, caught) := rfl
    rw [← round.pass, passed] at round
    exact .answers round
  obtain ⟨rfl, answer, after⟩ := (steps _ _ _).1 consumes
  rw [← answer, ← after] at counted outcome
  refine ⟨looping, caught, .inl reaches, rfl, consumes, Prod.ext answer.symm after.symm, counted,
    ?_⟩
  refine (outcome rfl rfl).resolve_left ?_
  rintro ⟨now, f, below, within, _, frames, empty, _⟩
  cases within with
  | here =>
    cases frames
    cases empty
  | next goes _ => cases throws.symm.trans goes

end Catena
