import Catena.Proofs.Effects
import Catena.Proofs.Release
import Catena.Proofs.Protection

set_option autoImplicit false

/-!
How frames come and go. Each part of a step replaces the topmost frames by others, and with the
calls among them go and come the scopes that they have saved. New calls come on top of new attempts
and the program stays at the bottom, where it is alone while a container is open.
-/

namespace Catena

/-- The frames `gone` have given way to `new`. -/
structure Machine.Reframed (gone new rest : List Frame) (m m' : Machine) : Prop where
  frames : m.frames.toList = gone ++ rest
  frames' : m'.frames.toList = new ++ rest
  saved : m'.scopes.saved.drop (callsIn new) = m.scopes.saved.drop (callsIn gone)
  /-- An attempt is opened in the activation that is running, and in place of no other. -/
  opens : ∀ above height below, new = above ++ .attempt height :: below →
    callsIn below = 0 ∧ callsIn gone = 0 ∧ ∀ f ∈ gone, f.attemptHeight? = none
  /-- A program gives way to what is left of it. -/
  root : ∀ above tokens below, new = above ++ .program tokens :: below →
    below = [] ∧ ∃ tokens', gone = [.program tokens']
  /-- Only a program opens containers, and with containers open nothing but a program comes. -/
  quiet : m'.isCollecting = true →
    ((∀ f ∈ gone, f.isProgram = true) → ∀ f ∈ new, f.isProgram = true) ∧
      (m.isCollecting = true ∨ ∃ tokens, gone = [.program tokens])

/-- Frames that are neither calls, programs nor attempts. -/
def Frame.isInner : Frame → Bool
  | .call .. | .program _ | .attempt _ => false
  | _ => true

/-- What can come in the place of a frame: the rest of it, if it is code, and otherwise one frame at
most. -/
def Frame.GivesWay (f : Frame) (base : List Frame) : Prop :=
  base.length ≤ 1 ∧ ∀ code, f = .body code → ∃ rest, base = [.body rest]

namespace Frame

variable {f : Frame}

theorem isCall_of_isInner (inner : f.isInner = true) : f.isCall = false := by
  cases f <;> first | rfl | cases inner

theorem isProgram_of_isInner (inner : f.isInner = true) : f.isProgram = false := by
  cases f <;> first | rfl | cases inner

theorem attemptHeight?_of_isInner (inner : f.isInner = true) : f.attemptHeight? = none := by
  cases f <;> first | rfl | cases inner

end Frame

theorem callsIn_of_isInner {frames : List Frame} (inner : ∀ f ∈ frames, f.isInner = true) :
    callsIn frames = 0 := by
  rw [callsIn, List.countP_eq_zero]
  intro f member
  simp [Frame.isCall_of_isInner (inner f member)]

namespace Machine.Reframed

variable {gone new rest base : List Frame} {f : Frame} {m m₁ m₂ m' : Machine}

/-- Frames, saved scopes and containers are what matters of the machines. -/
theorem congr (reframed : Reframed gone new rest m₁ m₂) (frames : m.frames = m₁.frames)
    (saved : m.scopes.saved = m₁.scopes.saved) (quotes : m.openQuotes = m₁.openQuotes)
    (params : m.openParams = m₁.openParams) (frames' : m'.frames = m₂.frames)
    (saved' : m'.scopes.saved = m₂.scopes.saved) (quotes' : m'.openQuotes = m₂.openQuotes)
    (params' : m'.openParams = m₂.openParams) : Reframed gone new rest m m' where
  frames := by rw [frames, reframed.frames]
  frames' := by rw [frames', reframed.frames']
  saved := by rw [saved', saved, reframed.saved]
  opens := reframed.opens
  root := reframed.root
  quiet := by
    rw [isCollecting, quotes', params', isCollecting, quotes, params]
    exact reframed.quiet

/-- Frames are taken away, with the scopes of the calls among them. -/
theorem taken (frames : m.frames.toList = gone ++ rest) (frames' : m'.frames.toList = rest)
    (saved : m'.scopes.saved = m.scopes.saved.drop (callsIn gone))
    (quiet : m'.isCollecting = true → m.isCollecting = true) : Reframed gone [] rest m m' where
  frames := frames
  frames' := frames'
  saved := saved
  opens := by simp
  root := by simp
  quiet collecting := ⟨fun _ => List.forall_mem_nil _, .inl (quiet collecting)⟩

/-- Nothing has happened to the frames. -/
theorem same (frames : m'.frames = m.frames) (saved : m'.scopes.saved = m.scopes.saved)
    (quiet : m'.isCollecting = true → m.isCollecting = true) :
    Reframed [] [] m.frames.toList m m' :=
  taken rfl (congrArg Stack.toList frames) saved quiet

/-- Code has run above what came in the place of an inner frame. -/
theorem launch {new : List Frame} (inner : f.isInner = true) (frames : m.frames.toList = f :: rest)
    (bases : ∀ g ∈ base, g.isInner = true) (frames₁ : m₁.frames.toList = base ++ rest)
    (saved : m₁.scopes.saved = m.scopes.saved) (quotes : m₁.openQuotes = m.openQuotes)
    (params : m₁.openParams = m.openParams) (adds : m₁.Adds new m') :
    Reframed [f] (new ++ base) rest m m' where
  frames := frames
  frames' := by rw [adds.frames, frames₁, List.append_assoc]
  saved := by
    rw [callsIn_append, callsIn_of_isInner bases, Nat.add_zero, adds.saved, saved,
      callsIn_of_isInner (List.forall_mem_singleton.2 inner), List.drop_zero]
  opens above height below split := by
    refine ⟨?_, callsIn_of_isInner (List.forall_mem_singleton.2 inner),
      List.forall_mem_singleton.2 (Frame.attemptHeight?_of_isInner inner)⟩
    rcases append_split split with ⟨mid, upper, rfl⟩ | ⟨mid, rfl, lower⟩
    · rw [callsIn_append, callsIn_of_isInner bases, adds.order above height mid upper]
    · cases bases (.attempt height) (by simp [lower])
  root above tokens below split := by
    have member : .program tokens ∈ new ++ base := by simp [split]
    rcases List.mem_append.1 member with added | based
    · cases adds.code _ added
    · cases bases _ based
  quiet collecting := by
    have kept : m'.isCollecting = m.isCollecting := by
      rw [isCollecting, isCollecting, adds.openQuotes, adds.openParams, quotes, params]
    refine ⟨fun programs => ?_, .inl (kept ▸ collecting)⟩
    have program := programs f List.mem_cons_self
    rw [Frame.isProgram_of_isInner inner] at program
    cases program

/-- A token of the program has run. -/
theorem program {new : List Frame} {tokens tokens' : List Token}
    (frames : m.frames.toList = .program tokens :: rest)
    (frames' : m'.frames.toList = new ++ .program tokens' :: rest)
    (saved : m'.scopes.saved.drop (callsIn new) = m.scopes.saved)
    (code : ∀ f ∈ new, f.isProgram = false)
    (order : ∀ above height below, new = above ++ .attempt height :: below → callsIn below = 0)
    (quiet : m'.isCollecting = true → new = []) :
    Reframed [.program tokens] (new ++ [.program tokens']) rest m m' where
  frames := frames
  frames' := by rw [frames', List.append_assoc, List.singleton_append]
  saved := by
    rw [callsIn_append]
    exact saved
  opens above height below split := by
    refine ⟨?_, rfl, List.forall_mem_singleton.2 rfl⟩
    rcases append_split split with ⟨mid, upper, rfl⟩ | ⟨mid, rfl, lower⟩
    · rw [callsIn_append, order above height mid upper]
      rfl
    · have member : .attempt height ∈ [Frame.program tokens'] := by simp [lower]
      cases List.mem_singleton.1 member
  root above tokens₁ below split := by
    refine ⟨?_, tokens, rfl⟩
    rcases append_split split with ⟨mid, upper, _⟩ | ⟨mid, _, lower⟩
    · cases code (.program tokens₁) (by simp [upper])
    · have lengths := congrArg List.length lower
      simp only [List.length_append, List.length_cons, List.length_nil] at lengths
      exact List.eq_nil_of_length_eq_zero (by omega)
  quiet collecting := by
    rw [quiet collecting]
    exact ⟨fun _ => List.forall_mem_singleton.2 rfl, .inr ⟨tokens, rfl⟩⟩

end Machine.Reframed

namespace Exec

variable {f : Frame} {below : Stack Frame} {m : Machine}

/-- The machine has been reframed in some way, with no other frames gone than these. -/
def Reframes {α : Type} (most : List Frame) (m : Machine) (x : EStateM.Result Signal Machine α) :
    Prop :=
  ∃ gone new rest, gone <+: most ∧ m.Reframed gone new rest (left x)

theorem left_thenPure {α β : Type} (x : Exec α) (b : β) (m : Machine) :
    left ((do let _ ← x; pure b : Exec β) m) = left (x m) := by
  simp only [Bind.bind, EStateM.bind]
  cases x m <;> rfl

theorem Launched.thenPure {α β : Type} {x : Exec α} {m₁ : Machine} (launched : Launched m (x m₁))
    (b : β) : Launched m ((do let _ ← x; pure b : Exec β) m₁) := by
  simp only [Bind.bind, EStateM.bind]
  generalize x m₁ = y at launched
  cases launched with
  | worked adds plain =>
    cases y with
    | ok a m' => exact .worked adds plain
    | error signal m' => exact .worked adds plain
  | called adds plain entered => exact .called adds plain entered

/-- What dealing with the frame `f`, which stands on `below`, can come to. -/
inductive Advances {α : Type} (m : Machine) (f : Frame) (below : Stack Frame) :
    EStateM.Result Signal Machine α → Prop
  /-- Code runs in the place of an inner frame. -/
  | launches {x} (m₁ : Machine) (base : List Frame) (inner : f.isInner = true)
      (bases : ∀ g ∈ base, g.isInner = true) (gives : f.GivesWay base)
      (frames : m₁.frames.toList = base ++ below.toList) (limit : m₁.maxFrames = m.maxFrames)
      (saved : m₁.scopes.saved = m.scopes.saved) (quotes : m₁.openQuotes = m.openQuotes)
      (params : m₁.openParams = m.openParams) (launched : Launched m₁ x) : Advances m f below x
  /-- A token is collected or pushed. -/
  | collects {x} (t : Token) (tokens : List Token) (program : f = .program (t :: tokens))
      (collects : Machine.Collects { m with frames := below.push (.program tokens) } (left x)) :
      Advances m f below x
  /-- A token runs. -/
  | runs {x} (t : Token) (tokens : List Token) (program : f = .program (t :: tokens))
      (free : m.isCollecting = false)
      (launched : Launched { m with frames := below.push (.program tokens) } x) :
      Advances m f below x
  /-- The frame is done with; a closure takes its scope with it. -/
  | leaves {x} (ended : ∃ a m', x = .ok a m') (frames : (left x).frames = below)
      (limit : (left x).maxFrames = m.maxFrames)
      (saved : (left x).scopes.saved = m.scopes.saved.drop (callsIn [f]))
      (quiet : (left x).isCollecting = m.isCollecting) : Advances m f below x
  /-- It cannot be dealt with. -/
  | refuses {x} (failed : ∃ e m', x = .error (.error e) m') (same : left x = m) :
      Advances m f below x

theorem Advances.thenPure {α β : Type} {x : Exec α} {m₁ : Machine}
    (advances : Advances m f below (x m₁)) (b : β) :
    Advances m f below ((do let _ ← x; pure b : Exec β) m₁) := by
  have same := left_thenPure x b m₁
  cases advances with
  | launches m₂ base inner bases gives frames limit saved quotes params launched =>
    exact .launches m₂ base inner bases gives frames limit saved quotes params
      (launched.thenPure b)
  | collects t tokens program collects => exact .collects t tokens program (same ▸ collects)
  | runs t tokens program free launched => exact .runs t tokens program free (launched.thenPure b)
  | leaves ended frames limit saved quiet =>
    refine .leaves ?_ (same ▸ frames) (same ▸ limit) (same ▸ saved) (same ▸ quiet)
    obtain ⟨a, m', ended⟩ := ended
    simp only [Bind.bind, EStateM.bind, ended]
    exact ⟨b, m', rfl⟩
  | refuses failed kept =>
    refine .refuses ?_ (same.trans kept)
    obtain ⟨e, m', failed⟩ := failed
    simp only [Bind.bind, EStateM.bind, failed]
    exact ⟨e, m', rfl⟩

theorem advances_token {t : Token} {tokens : List Token} :
    Advances m (.program (t :: tokens)) below
      (token t { m with frames := below.push (.program tokens) }) := by
  rcases token_collects t { m with frames := below.push (.program tokens) } with
    collects | ⟨free, launched⟩
  · exact .collects t tokens rfl collects
  · exact .runs t tokens rfl free launched

theorem advances_leaveCall {c : Closure Value} {floor : Nat} :
    Advances m (.call c floor) below (leaveCall c floor below m) := by
  have left' : (m.scopes.leave).saved = m.scopes.saved.drop 1 := by
    rw [Scopes.leave]
    cases m.scopes.saved <;> rfl
  simp only [leaveCall, checkLeft]
  cases c.signature with
  | none => exact .leaves ⟨_, _, rfl⟩ rfl rfl left' rfl
  | some signature =>
    simp only [Bind.bind, EStateM.bind, get_apply]
    cases m.checkReturns signature floor with
    | ok _ => exact .leaves ⟨_, _, rfl⟩ rfl rfl left' rfl
    | error e => exact .refuses ⟨_, _, rfl⟩ rfl

theorem advances_checkCondition {action : Value} {pairs : List (Value × Value)}
    (top : m.frames.toList = .condCheck action pairs :: below.toList) :
    Advances m (.condCheck action pairs) below (checkCondition action pairs below m) := by
  simp only [checkCondition, Bind.bind, EStateM.bind, pop]
  cases m.operands.pop with
  | error e => exact .refuses ⟨_, _, rfl⟩ rfl
  | ok popped =>
    obtain ⟨v, operands⟩ := popped
    simp only
    split
    · exact .launches { m with operands, frames := below } [] rfl (List.forall_mem_nil _)
        ⟨Nat.zero_le _, by simp⟩ rfl rfl rfl rfl rfl (launches_invoke action _)
    · exact .launches { m with operands, frames := below.push (.condTest pairs) } [.condTest pairs]
        rfl (List.forall_mem_singleton.2 rfl) ⟨Nat.le_refl _, by simp⟩ rfl rfl rfl rfl rfl
        ((quiet_pure ()).works.launches _)
    · exact .launches { m with operands } [.condCheck action pairs] rfl
        (List.forall_mem_singleton.2 rfl) ⟨Nat.le_refl _, by simp⟩ top rfl rfl rfl rfl
        ((quiet_fail (.conditionMismatch _)).works.launches _)

theorem advances_leaveUpdate {items : List Value} {field : Field} {types : Scope} {floor : Nat} :
    Advances m (.update items field types floor) below
      (leaveUpdate items field types floor below m) := by
  let m₁ : Machine := { m with frames := below, operands := m.operands.allow floor }
  exact .launches m₁ [] rfl (List.forall_mem_nil _) ⟨Nat.zero_le _, by simp⟩ rfl rfl rfl rfl rfl
    (quiet_writeLeft.works.launches m₁)

theorem works_runBody (body : List Value) : Works (runBody body) := by
  unfold runBody
  split
  · exact (quiet_pure _).works
  · exact (works_pushFrame rfl rfl).bind fun _ => (quiet_pure _).works

/-- All that dealing with a frame can do. -/
theorem advances_advance (top : m.frames.toList = f :: below.toList) :
    Advances m f below (advance f below m) := by
  have one (g : Frame) (inner : g.isInner = true) : ∀ f ∈ [g], f.isInner = true :=
    List.forall_mem_singleton.2 inner
  cases f with
  | program tokens =>
    cases tokens with
    | nil => exact .leaves ⟨_, _, rfl⟩ rfl rfl rfl rfl
    | cons t tokens => exact advances_token.thenPure Tick.checkpoint
  | body code =>
    cases code with
    | nil => exact .leaves ⟨_, _, rfl⟩ rfl rfl rfl rfl
    | cons v code =>
      exact .launches { m with frames := below.push (.body code) } [.body code] rfl (one _ rfl)
        ⟨Nat.le_refl _, fun _ _ => ⟨code, rfl⟩⟩ rfl rfl rfl rfl rfl
        ((launches_value v _).thenPure Tick.checkpoint)
  | call c floor => exact advances_leaveCall.thenPure Tick.internal
  | loop body =>
    exact .launches m [.loop body] rfl (one _ rfl) ⟨Nat.le_refl _, by simp⟩ top rfl rfl rfl rfl
      ((works_runBody body).launches m)
  | iterate source index withIndex body =>
    simp only [advance]
    split
    · let next : Frame := .iterate source (index + 1) withIndex body
      have works := (quiet_pushElement source index withIndex).works.bind fun _ =>
        works_runBody body
      exact .launches { m with frames := below.push next } [next] rfl (one _ rfl)
        ⟨Nat.le_refl _, by simp⟩ rfl rfl rfl rfl rfl (works.launches _)
    · exact .leaves ⟨_, _, rfl⟩ rfl rfl rfl rfl
  | condTest pairs =>
    cases pairs with
    | nil => exact .leaves ⟨_, _, rfl⟩ rfl rfl rfl rfl
    | cons pair pairs =>
      obtain ⟨test, action⟩ := pair
      exact .launches { m with frames := below.push (.condCheck action pairs) }
        [.condCheck action pairs] rfl (one _ rfl) ⟨Nat.le_refl _, by simp⟩ rfl rfl rfl rfl rfl
        ((launches_invoke test _).thenPure Tick.internal)
  | condCheck action pairs => exact (advances_checkCondition top).thenPure Tick.internal
  | attempt height => exact .leaves ⟨_, _, rfl⟩ rfl rfl rfl rfl
  | update items field types floor => exact advances_leaveUpdate.thenPure Tick.internal

/-- What dealing with a frame does to the frames. -/
theorem reframes_advance (top : m.frames.toList = f :: below.toList) :
    Reframes [f] m (advance f below m) := by
  cases advances_advance top with
  | launches m₁ base inner bases _ frames₁ _ saved quotes params launched =>
    obtain ⟨new, adds⟩ := launched.adds
    exact ⟨[f], new ++ base, below.toList, ⟨[], rfl⟩,
      .launch inner top bases frames₁ saved quotes params adds⟩
  | collects t tokens program collects =>
    subst program
    have frames : (left (advance (.program (t :: tokens)) below m)).frames.toList =
        [] ++ .program tokens :: below.toList := by
      rw [collects.frames]
      rfl
    refine ⟨_, _, _, ⟨[], rfl⟩,
      .program top frames ?_ (List.forall_mem_nil _) (by simp) fun _ => rfl⟩
    rw [collects.scopes]
    rfl
  | runs t tokens program free launched =>
    subst program
    obtain ⟨new, adds⟩ := launched.adds
    refine ⟨_, _, _, ⟨[], rfl⟩,
      .program top adds.frames adds.saved adds.code adds.order fun collecting => ?_⟩
    have kept : (left (advance (.program (t :: tokens)) below m)).isCollecting = false := by
      rw [Machine.isCollecting, adds.openQuotes, adds.openParams]
      exact free
    cases collecting.symm.trans kept
  | leaves _ frames _ saved quiet =>
    refine ⟨[f], [], below.toList, ⟨[], rfl⟩, .taken top (congrArg Stack.toList frames) saved ?_⟩
    intro collecting
    exact quiet.symm.trans collecting
  | refuses _ same =>
    refine ⟨[], [], _, ⟨_, rfl⟩, .same ?_ ?_ ?_⟩ <;> rw [same]
    exact id

end Exec

/-! ### Signals -/

/-- Frames have been given up and what they had set up has been released. -/
theorem Machine.Reframed.released {gone above rest : List Frame} {m m' : Machine}
    (aligned : Aligned m) (frames : m.frames.toList = gone ++ rest)
    (calls : callsIn above = callsIn gone) (frames' : m'.frames.toList = rest)
    (saved : m'.scopes.saved = (m.releaseAll above).scopes.saved)
    (quiet : m'.isCollecting = true → (m.releaseAll above).isCollecting = true) :
    Reframed gone [] rest m m' := by
  have depth : m.scopes.depth = callsIn gone + callsIn rest := by
    rw [Scopes.depth, aligned.saved, frames, callsIn_append]
  refine .taken frames frames' ?_ fun collecting => ?_
  · rw [saved, saved_releaseAll (by omega), calls]
  · rw [← m.isCollecting_releaseAll above]
    exact quiet collecting

/-- A closure has been put in the place of the running one. -/
theorem Machine.Reframed.replaced {above rest : List Frame} {c d : Closure Value} {floor : Nat}
    {m m' : Machine} (frames : m.frames.toList = above ++ .call c floor :: rest)
    (frames' : m'.frames.toList = .body d.body :: .call d floor :: rest)
    (saved : m'.scopes.saved = m.scopes.saved.drop (callsIn above))
    (quiet : m'.isCollecting = m.isCollecting) :
    Reframed (above ++ [.call c floor]) [.body d.body, .call d floor] rest m m' where
  frames := by rw [frames, List.append_assoc, List.singleton_append]
  frames' := frames'
  saved := by
    rw [callsIn_append, ← List.drop_drop, ← saved]
    rfl
  opens front height back split := by
    have member : .attempt height ∈ [Frame.body d.body, .call d floor] := by simp [split]
    simp at member
  root front tokens back split := by
    have member : .program tokens ∈ [Frame.body d.body, .call d floor] := by simp [split]
    simp at member
  quiet collecting := by
    refine ⟨fun programs => ?_, .inl (quiet ▸ collecting)⟩
    cases programs (.call c floor) (by simp)

namespace Exec

variable {m : Machine}

theorem reframes_leaveLoop (aligned : Aligned m) : Reframes m.frames.toList m (leaveLoop m) := by
  rcases exists_split Frame.loopEdge? m.frames.toList with free |
    ⟨above, f, rest, isLoop, frames, passed, found⟩
  · rw [leaveLoop_of_passed free]
    exact ⟨m.frames.toList, [], [], ⟨[], List.append_nil _⟩,
      .released aligned (List.append_nil _).symm rfl rfl rfl id⟩
  · obtain ⟨below, split, lower⟩ := Stack.split?_of_append frames passed found
    simp only [leaveLoop, split]
    cases isLoop with
    | true =>
      have whole : m.frames.toList = (above ++ [f]) ++ rest := by
        rw [frames, List.append_assoc, List.singleton_append]
      have calls : callsIn above = callsIn (above ++ [f]) := by
        rw [callsIn_append]
        cases f <;> first | rfl | cases found
      exact ⟨above ++ [f], [], rest, ⟨rest, whole.symm⟩, .released aligned whole calls lower rfl id⟩
    | false =>
      have here : (m.frames.drop above.length).toList = f :: rest := by simp [frames]
      exact ⟨above, [], f :: rest, ⟨_, frames.symm⟩, .released aligned frames rfl here rfl id⟩

theorem reframes_replaceCall (aligned : Aligned m) (target : Closure Value) :
    Reframes m.frames.toList m (replaceCall target m) := by
  rcases exists_split Frame.callFloor? m.frames.toList with free |
    ⟨above, f, rest, floor, frames, passed, found⟩
  · rw [replaceCall_of_passed free]
    exact ⟨[], [], _, ⟨_, rfl⟩, .same rfl rfl id⟩
  · obtain ⟨below, split, lower⟩ := Stack.split?_of_append frames passed found
    obtain ⟨c, rfl⟩ := Frame.callFloor?_eq_some found
    have saved : (m.releaseAll above).scopes.saved = m.scopes.saved.drop (callsIn above) := by
      refine Machine.saved_releaseAll ?_
      rw [Scopes.depth, aligned.saved, frames, callsIn_append]
      omega
    have caller : (m.releaseAll above).scopes.saved ≠ [] := by
      have depth := aligned.saved
      rw [frames, callsIn_append, callsIn_cons] at depth
      rw [saved, ← List.length_pos_iff, List.length_drop, depth]
      simp only [Frame.isCall, if_true]
      omega
    rw [replaceCall_eq split, Scopes.enter_leave caller]
    generalize entered : ({ m.releaseAll above with
      frames := m.frames.drop above.length
      scopes := { (m.releaseAll above).scopes with active := target.activation } } : Machine) = m₁
    have frames₁ : m₁.frames.toList = .call c floor :: rest := by simp [← entered, frames]
    have saved₁ : m₁.scopes.saved = (m.releaseAll above).scopes.saved := by rw [← entered]
    have quiet₁ : m₁.isCollecting = (m.releaseAll above).isCollecting := by rw [← entered]; rfl
    have steady := steady_bindParameters target m₁
    obtain ⟨new, adds, _⟩ := works_bindParameters target m₁
    have quiet (m' : Machine) (adds : m₁.Adds new m') :
        m'.isCollecting = (m.releaseAll above).isCollecting := by
      rw [← quiet₁, Machine.isCollecting, Machine.isCollecting, adds.openQuotes, adds.openParams]
    simp only [Bind.bind, EStateM.bind]
    cases ran : bindParameters target m₁ with
    | error signal m' =>
      rw [ran] at steady adds
      obtain ⟨⟨level, scopes⟩, _⟩ := steady
      refine ⟨above, [], .call c floor :: rest, ⟨_, frames.symm⟩,
        .released aligned frames rfl ?_ ?_ ?_⟩
      · rw [← frames₁]
        exact congrArg Stack.toList level
      · exact scopes.trans saved₁
      · intro collecting
        exact (quiet m' adds).symm.trans collecting
    | ok _ m' =>
      rw [ran] at steady adds
      have scopes : m'.scopes.saved = m.scopes.saved.drop (callsIn above) :=
        steady.2.trans (saved₁.trans saved)
      have collecting : m'.isCollecting = m.isCollecting :=
        (quiet m' adds).trans (m.isCollecting_releaseAll above)
      have whole : (above ++ [.call c floor]) ++ rest = m.frames.toList := by
        rw [frames, List.append_assoc, List.singleton_append]
      refine ⟨_, _, _, ⟨_, whole⟩, .replaced (d := target) frames ?_ scopes collecting⟩
      rw [← lower]
      rfl

end Exec

theorem Machine.reframed_raiseError {m : Machine} (aligned : Aligned m) (e : LocatedError) :
    ∃ gone rest, m.Reframed gone [] rest (m.raiseError e).2 := by
  rcases exists_split Frame.attemptHeight? m.frames.toList with free |
    ⟨above, f, rest, height, frames, passed, found⟩
  · rw [raiseError_of_passed free]
    refine ⟨m.frames.toList, [], .released aligned (List.append_nil _).symm rfl rfl rfl ?_⟩
    intro collecting
    cases (rfl : m.abort.isCollecting = false).symm.trans collecting
  · obtain ⟨below, split, lower⟩ := Stack.split?_of_append frames passed found
    obtain rfl := Frame.attemptHeight?_eq_some found
    have whole : m.frames.toList = (above ++ [.attempt height]) ++ rest := by
      rw [frames, List.append_assoc, List.singleton_append]
    have calls : callsIn above = callsIn (above ++ [.attempt height]) := by
      rw [callsIn_append]
      rfl
    simp only [raiseError, split]
    exact ⟨above ++ [.attempt height], rest, .released aligned whole calls lower rfl id⟩

/-! ### What follows for attempts and programs -/

/-- The height that the attempt at a position has recorded, if there is one. -/
def Machine.attemptAt? (m : Machine) (i : Nat) : Option Nat :=
  (m.frameAt? i).bind Frame.attemptHeight?

theorem Machine.attemptAt?_eq_some {m : Machine} {i height : Nat} :
    m.attemptAt? i = some height ↔
      ∃ above below, m.frames.toList = above ++ .attempt height :: below ∧ below.length = i := by
  constructor
  · intro found
    obtain ⟨f, here, attempt⟩ := Option.bind_eq_some_iff.1 found
    obtain rfl := Frame.attemptHeight?_eq_some attempt
    exact Machine.exists_of_frameAt? here
  · rintro ⟨above, below, frames, rfl⟩
    rw [attemptAt?, Machine.frameAt?_of_append frames]
    rfl

/-- The program is at the bottom, and alone as long as a container is open. -/
structure Machine.Rooted (m : Machine) : Prop where
  bottom : ∀ above tokens below, m.frames.toList = above ++ .program tokens :: below → below = []
  alone : m.isCollecting = true → ∀ f ∈ m.frames.toList, f.isProgram = true

namespace Machine.Reframed

variable {gone new rest above below : List Frame} {height : Nat} {m m' : Machine}

/-- A new attempt is opened in the activation that was running. -/
theorem opened (reframed : Reframed gone new rest m m')
    (frames' : m'.frames.toList = above ++ .attempt height :: below)
    (fresh : m.attemptAt? below.length = none) :
    below.filter Frame.isCall = m.frames.toList.filter Frame.isCall ∧
      m'.scopes.saved.drop (callsIn above) = m.scopes.saved := by
  rcases append_split (reframed.frames'.symm.trans frames') with
    ⟨mid, rfl, rfl⟩ | ⟨mid, rfl, rfl⟩
  · obtain ⟨plain, plain', _⟩ := reframed.opens above height mid rfl
    have none {frames : List Frame} (calls : callsIn frames = 0) :
        frames.filter Frame.isCall = [] :=
      List.filter_eq_nil_iff.2 (List.countP_eq_zero.1 calls)
    have saved := reframed.saved
    rw [callsIn_append, callsIn_cons, plain, plain', List.drop_zero] at saved
    rw [reframed.frames, List.filter_append, List.filter_append, none plain, none plain']
    exact ⟨rfl, saved⟩
  · have here : m.attemptAt? below.length = some height := by
      refine attemptAt?_eq_some.2 ⟨gone ++ mid, below, ?_, rfl⟩
      rw [reframed.frames, List.append_assoc]
    cases fresh.symm.trans here

/-- An attempt that is still there stands on the same frames, and on the same scopes. -/
theorem held (reframed : Reframed gone new rest m m')
    (frames : m.frames.toList = above ++ .attempt height :: below) {height' : Nat}
    (still : m'.attemptAt? below.length = some height') :
    ∃ above', m'.frames.toList = above' ++ .attempt height :: below ∧
      m'.scopes.saved.drop (callsIn above') = m.scopes.saved.drop (callsIn above) := by
  rcases append_split (reframed.frames.symm.trans frames) with
    ⟨mid, rfl, rfl⟩ | ⟨mid, rfl, rfl⟩
  · -- The attempt was among the frames that are gone; no other one can have come.
    obtain ⟨front, back, frames', depth⟩ := attemptAt?_eq_some.1 still
    rw [List.length_append] at depth
    rcases append_split (reframed.frames'.symm.trans frames') with
      ⟨mid', rfl, _⟩ | ⟨mid', _, rfl⟩
    · obtain ⟨_, _, other⟩ := reframed.opens front height' mid' rfl
      cases other (.attempt height) (by simp)
    · simp only [List.length_append, List.length_cons] at depth
      omega
  · refine ⟨new ++ mid, by rw [reframed.frames', List.append_assoc], ?_⟩
    rw [callsIn_append, callsIn_append, ← List.drop_drop, ← List.drop_drop, reframed.saved]

/-- Where frames are only taken away, no attempt is new. -/
theorem attemptAt?_of_taken (reframed : Reframed gone [] rest m m') {i : Nat}
    (found : m'.attemptAt? i = some height) : m.attemptAt? i = some height := by
  obtain ⟨front, back, frames', depth⟩ := attemptAt?_eq_some.1 found
  have frames' := reframed.frames'.symm.trans frames'
  refine attemptAt?_eq_some.2 ⟨gone ++ front, back, ?_, depth⟩
  rw [reframed.frames, List.append_assoc]
  exact congrArg (gone ++ ·) frames'

theorem rooted (reframed : Reframed gone new rest m m') (rooted : m.Rooted) : m'.Rooted := by
  have alone (tokens : List Token) (program : gone = [.program tokens]) : rest = [] := by
    refine rooted.bottom [] tokens rest ?_
    rw [reframed.frames, program]
    rfl
  constructor
  · intro front tokens back split
    rcases append_split (reframed.frames'.symm.trans split) with ⟨mid, upper, rfl⟩ | ⟨mid, rfl, rfl⟩
    · obtain ⟨rfl, tokens', program⟩ := reframed.root front tokens mid upper
      exact alone tokens' program
    · refine rooted.bottom (gone ++ mid) tokens back ?_
      rw [reframed.frames, List.append_assoc]
  · intro collecting
    obtain ⟨programs, before | ⟨tokens, program⟩⟩ := reframed.quiet collecting
    · have all := rooted.alone before
      rw [reframed.frames, List.forall_mem_append] at all
      rw [reframed.frames', List.forall_mem_append]
      exact ⟨programs all.1, all.2⟩
    · rw [reframed.frames', alone tokens program, List.append_nil]
      refine programs ?_
      rw [program]
      exact List.forall_mem_singleton.2 rfl

end Machine.Reframed

end Catena
