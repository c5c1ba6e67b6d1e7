import Catena.Proofs.Invocation

set_option autoImplicit false

/-!
Signals on machines that are alike above their grounds. As long as the frame that a signal looks for
is above the ground, both machines find it at the same place and stay alike; an error that no frame
above the ground catches leaves them alike up to that point.
-/

namespace Catena

section

variable {α β : Type} {s : Stack α} {read? : α → Option β}

theorem Stack.split?_of_append {above rest : List α} {a : α} {b : β}
    (elements : s.toList = above ++ a :: rest) (passed : ∀ x ∈ above, read? x = none)
    (found : read? a = some b) :
    ∃ below, s.split? read? = some (above, b, below) ∧ below.toList = rest := by
  have taken : s.toList.takeWhile (fun x => (read? x).isNone) = above := by
    rw [elements, List.takeWhile_append_of_pos (fun x member => by simp [passed x member])]
    simp [found]
  have top : (s.drop above.length).pop? = some (a, s.drop (above.length + 1)) := by
    rw [Stack.pop?_eq_some_iff]
    simp [elements]
  refine ⟨s.drop (above.length + 1), ?_, by simp [elements]⟩
  simp only [Stack.split?, taken, top, found, Option.map_some]

theorem Stack.split?_eq_none (passed : ∀ x ∈ s.toList, read? x = none) :
    s.split? read? = none := by
  have taken : s.toList.takeWhile (fun x => (read? x).isNone) = s.toList := by
    rw [← List.append_nil s.toList] at passed ⊢
    rw [List.takeWhile_append_of_pos fun x member => by simp [passed x (by simpa using member)]]
    rfl
  have top : (s.drop s.toList.length).pop? = none := by
    rw [Stack.pop?_eq_none_iff]
    simp
  simp only [Stack.split?, taken, top]

end

/-- The first frames that a signal stops at, if there are any, are at the same place. -/
theorem split_related {β : Type} {p : Nat → Nat → Prop} {own own' : List Frame}
    {read? : Frame → Option β} (respects : ∀ f g : Frame, f.Same p g → read? g = read? f)
    (same : List.Forall₂ (Frame.Same p) own own') :
    ((∀ f ∈ own, read? f = none) ∧ ∀ g ∈ own', read? g = none) ∨
      ∃ above f rest above' g rest' b, own = above ++ f :: rest ∧ own' = above' ++ g :: rest' ∧
        List.Forall₂ (Frame.Same p) above above' ∧ (∀ x ∈ above, read? x = none) ∧
        (∀ x ∈ above', read? x = none) ∧ f.Same p g ∧ read? f = some b ∧ read? g = some b := by
  induction same with
  | nil => exact .inl ⟨List.forall_mem_nil _, List.forall_mem_nil _⟩
  | @cons f g own own' fg same ih =>
    cases found : read? f with
    | some b =>
      have found' := (respects f g fg).trans found
      exact .inr ⟨[], f, own, [], g, own', b, rfl, rfl, .nil, List.forall_mem_nil _,
        List.forall_mem_nil _, fg, found, found'⟩
    | none =>
      have found' := (respects f g fg).trans found
      rcases ih with ⟨none, none'⟩ | ⟨above, f₁, rest, above', g₁, rest', b, rfl, rfl, rel, ha, ha',
        fg₁, hf, hg⟩
      · exact .inl ⟨List.forall_mem_cons.2 ⟨found, none⟩, List.forall_mem_cons.2 ⟨found', none'⟩⟩
      · exact .inr ⟨f :: above, f₁, rest, g :: above', g₁, rest', b, rfl, rfl, .cons fg rel,
          List.forall_mem_cons.2 ⟨found, ha⟩, List.forall_mem_cons.2 ⟨found', ha'⟩, fg₁, hf, hg⟩

theorem passed_related {β : Type} {p : Nat → Nat → Prop} {own own' : List Frame}
    {read? : Frame → Option β} (respects : ∀ f g : Frame, f.Same p g → read? g = read? f)
    (same : List.Forall₂ (Frame.Same p) own own') (passed : ∀ f ∈ own, read? f = none) :
    ∀ g ∈ own', read? g = none := by
  rcases split_related respects same with ⟨_, free⟩ | found
  · exact free
  · obtain ⟨above, f, rest, _, _, _, b, rfl, _, _, _, _, _, found, _⟩ := found
    rw [passed f (by simp)] at found
    cases found

/-! ### Giving up frames -/

theorem Machine.release_withFrames (m : Machine) (f : Frame) (s : Stack Frame) :
    ({ m with frames := s } : Machine).release f = { m.release f with frames := s } := by
  cases f <;> rfl

theorem Machine.releaseAll_withFrames (m : Machine) (above : List Frame) (s : Stack Frame) :
    ({ m with frames := s } : Machine).releaseAll above =
      { m.releaseAll above with frames := s } := by
  induction above generalizing m with
  | nil => rfl
  | cons f above ih =>
    simp only [Machine.releaseAll, List.foldl_cons, Machine.release_withFrames] at ih ⊢
    exact ih _

theorem Machine.registers_release (m : Machine) (f : Frame) :
    (m.release f).registers = m.registers := by
  cases f <;> rfl

theorem Machine.registers_releaseAll (m : Machine) (above : List Frame) :
    (m.releaseAll above).registers = m.registers := by
  induction above generalizing m with
  | nil => rfl
  | cons f above ih => exact (ih (m.release f)).trans (m.registers_release f)

namespace Alike

variable {A B : Ground} {p : Pairing} {own own' : List Frame} {m n : Machine}

theorem releaseAll {above above' : List Frame}
    (alike : Alike A B p (above ++ own) (above' ++ own') m n)
    (same : List.Forall₂ (Frame.Same p.rel) above above') {s t : Stack Frame}
    (left : s.toList = own ++ A.frames) (right : t.toList = own' ++ B.frames) :
    Alike A B p own own' { m.releaseAll above with frames := s }
      { n.releaseAll above' with frames := t } := by
  induction same generalizing m n with
  | nil =>
    refine alike.setFrames left right ?_ rfl rfl alike.layered ?_
    · exact alike.same
    · exact fun r only => (alike.codeOnly r only).2.2.2
  | @cons f g above above' _ _ ih =>
    have next := alike.release (s := .ofList ((above ++ own) ++ A.frames))
      (t := .ofList ((above' ++ own') ++ B.frames)) rfl rfl
    have rest := ih next
    simp only [Machine.releaseAll_withFrames] at rest
    exact rest

/-- Both machines are down to their grounds. -/
theorem releaseOwn (alike : Alike A B p own own' m n) :
    Alike A B p [] [] { m.releaseAll own with frames := .ofList A.frames }
      { n.releaseAll own' with frames := .ofList B.frames } := by
  have same := alike.same
  rw [← List.append_nil own, ← List.append_nil own'] at alike
  exact alike.releaseAll same rfl rfl

theorem abort (alike : Alike A A p own own' m n) (bare : A.frames = []) :
    Alike A A p [] [] m.abort n.abort := by
  have frames : m.frames.toList = own := by simpa [bare] using alike.frames
  have frames' : n.frames.toList = own' := by simpa [bare] using alike.frames'
  subst frames frames'
  have released := alike.releaseOwn
  rw [bare] at released
  have only := released.codeOnly
  obtain ⟨registry, maxFrames, _, _⟩ := released.registers
  exact { released with
    registers := ⟨registry, maxFrames, .none, fun asleep => by cases asleep⟩
    openQuotes := rfl
    openParams := rfl
    codeOnly := fun r code => ⟨(only r code).1, rfl, rfl, List.forall_mem_nil _⟩ }

section

variable (alike : Alike A B p own own' m n)
include alike

theorem setControl {c d : Control} {a b : Option (Pending Value)} {i j : Nat} (cd : c.Same p.rel d)
    (ab : c = .suspend → Option.Rel (Pending.Same p.rel) a b) :
    Alike A B p own own' { m with control := c, pending := a, checkpoints := i }
      { n with control := d, pending := b, checkpoints := j } :=
  { alike with
    registers := ⟨alike.registers.registry, alike.registers.maxFrames, cd, ab⟩ }

theorem calm (calm : m.control = .none) : n.control = .none := by
  have same : m.control.Same p.rel n.control := alike.registers.control
  rw [calm] at same
  generalize n.control = c at same ⊢
  cases same
  rfl

theorem checkpoint : Alike A B p own own' m.checkpoint.2 n.checkpoint.2 :=
  alike.setControl alike.registers.control alike.registers.pending

theorem locate (e : RuntimeError) : n.locate e = m.locate e := by
  rw [Machine.locate, Machine.locate, alike.origin]

end

end Alike

/-- The scope of the running closure is replaced, whatever was saved for it. -/
theorem Scopes.enter_leave {s : Scopes} (saved : s.saved ≠ []) (scope : Scope) :
    s.leave.enter scope = { s with active := scope } := by
  obtain ⟨active, scopes⟩ := s
  cases scopes with
  | nil => contradiction
  | cons _ _ => rfl

theorem Exec.replaceCall_eq {m : Machine} {above : List Frame} {floor : Nat} {below : Stack Frame}
    (split : m.frames.split? Frame.callFloor? = some (above, floor, below))
    (target : Closure Value) :
    Exec.replaceCall target m =
      (do
        bindParameters target
        setFrames ((below.push (.call target floor)).push (.body target.body)))
      { m.releaseAll above with
        frames := m.frames.drop above.length
        scopes := (m.releaseAll above).scopes.leave.enter target.activation } := by
  simp only [Exec.replaceCall, Bind.bind, EStateM.bind, get_apply, split]
  rfl

theorem Exec.leaveLoop_of_passed {m : Machine}
    (passed : ∀ f ∈ m.frames.toList, f.loopEdge? = none) :
    Exec.leaveLoop m = .error (.error .breakOutsideLoop)
      { m.releaseAll m.frames.toList with frames := .empty } := by
  rw [Exec.leaveLoop, Stack.split?_eq_none passed]

theorem Exec.replaceCall_of_passed {m : Machine}
    (passed : ∀ f ∈ m.frames.toList, f.callFloor? = none) (target : Closure Value) :
    Exec.replaceCall target m = .error (.error .tailCallOutsideFunction) m := by
  simp only [Exec.replaceCall, Bind.bind, EStateM.bind, get_apply,
    Stack.split?_eq_none passed]
  rfl

/-! ### Signals -/

theorem Frame.Same.callFloor? {p : Nat → Nat → Prop} (f g : Frame) (same : f.Same p g) :
    g.callFloor? = f.callFloor? := by
  cases same <;> rfl

theorem Frame.Same.loopEdge? {p : Nat → Nat → Prop} (f g : Frame) (same : f.Same p g) :
    g.loopEdge? = f.loopEdge? := by
  cases same <;> rfl

theorem Frame.Same.attemptHeight? {p : Nat → Nat → Prop} (f g : Frame) (same : f.Same p g) :
    g.attemptHeight? = f.attemptHeight? := by
  cases same <;> rfl

/-- Both machines have found the frame that a signal looks for and given up those above it. -/
structure Unwound {β : Type} (A B : Ground) (p : Pairing) (read? : Frame → Option β)
    (m n : Machine) (above above' rest rest' : List Frame) (f g : Frame) (b : β)
    (below below' : Stack Frame) : Prop where
  split : m.frames.split? read? = some (above, b, below)
  split' : n.frames.split? read? = some (above', b, below')
  left : below.toList = rest ++ A.frames
  right : below'.toList = rest' ++ B.frames
  found : read? f = some b
  found' : read? g = some b
  frames : (m.frames.drop above.length).toList = f :: rest ++ A.frames
  frames' : (n.frames.drop above'.length).toList = g :: rest' ++ B.frames
  alike : Alike A B p (f :: rest) (g :: rest')
    { m.releaseAll above with frames := m.frames.drop above.length }
    { n.releaseAll above' with frames := n.frames.drop above'.length }

/-- How a step ends on two machines: alike, or with an error that is caught by no frame above the
ground. -/
inductive StepAlike (A B : Ground) (p : Pairing) : Step × Machine → Step × Machine → Prop
  | both {q own own' x m n} : p ≤ q → Alike A B q own own' m n → StepAlike A B p (x, m) (x, n)
  | escapes {q own own' e m n} : p ≤ q → Alike A B q own own' m n →
      (∀ f ∈ own, f.attemptHeight? = none) → (∀ f ∈ own', f.attemptHeight? = none) →
      StepAlike A B p (m.raiseError e) (n.raiseError e)

theorem StepAlike.lower {A B : Ground} {p q : Pairing} {x y : Step × Machine}
    (step : StepAlike A B q x y) (le : p ≤ q) : StepAlike A B p x y := by
  cases step with
  | both le' alike => exact .both (le_trans le le') alike
  | escapes le' alike none none' => exact .escapes (le_trans le le') alike none none'

theorem Frame.attemptHeight?_eq_some {f : Frame} {height : Nat}
    (found : f.attemptHeight? = some height) : f = .attempt height := by
  cases f <;> cases found
  rfl

theorem Frame.callFloor?_eq_some {f : Frame} {floor : Nat} (found : f.callFloor? = some floor) :
    ∃ c, f = .call c floor := by
  cases f <;> cases found
  exact ⟨_, rfl⟩

theorem Machine.release_of_loop {m : Machine} {f : Frame} (found : f.loopEdge? = some true) :
    m.release f = m := by
  cases f <;> first | rfl | cases found

namespace Alike

variable {A B : Ground} {p : Pairing} {own own' : List Frame} {m n : Machine}

/-- A signal looks for a frame in vain above the ground, or finds it at the same place. -/
theorem unwind {β : Type} {read? : Frame → Option β}
    (respects : ∀ f g : Frame, f.Same p.rel g → read? g = read? f)
    (alike : Alike A B p own own' m n) :
    ((∀ f ∈ own, read? f = none) ∧ ∀ g ∈ own', read? g = none) ∨
      ∃ above above' rest rest' f g b below below',
        Unwound A B p read? m n above above' rest rest' f g b below below' := by
  rcases split_related respects alike.same with passed |
    ⟨above, f, rest, above', g, rest', b, rfl, rfl, same, passed, passed', _, found, found'⟩
  · exact .inl passed
  · have frames := alike.frames.trans (List.append_assoc ..)
    have frames' := alike.frames'.trans (List.append_assoc ..)
    obtain ⟨below, split, left⟩ := Stack.split?_of_append frames passed found
    obtain ⟨below', split', right⟩ := Stack.split?_of_append frames' passed' found'
    have here : (m.frames.drop above.length).toList = f :: rest ++ A.frames := by
      simp [frames]
    have here' : (n.frames.drop above'.length).toList = g :: rest' ++ B.frames := by
      simp [frames']
    exact .inr ⟨above, above', rest, rest', f, g, b, below, below', split, split', left, right,
      found, found', here, here', alike.releaseAll same here here'⟩

theorem raiseError (alike : Alike A B p own own' m n) (e : LocatedError) :
    StepAlike A B p (m.raiseError e) (n.raiseError e) := by
  rcases alike.unwind Frame.Same.attemptHeight? with ⟨passed, passed'⟩ |
    ⟨above, above', rest, rest', f, g, height, below, below', unwound⟩
  · exact .escapes (le_refl p) alike passed passed'
  · obtain rfl := Frame.attemptHeight?_eq_some unwound.found
    obtain rfl := Frame.attemptHeight?_eq_some unwound.found'
    have caught := unwound.alike.release unwound.left unwound.right
    have operands := (caught.operands.truncate height).push (v := .error e) (.plain rfl)
    simp only [Machine.raiseError, unwound.split, unwound.split']
    exact .both (le_refl p) (caught.setOperands operands rfl rfl).checkpoint

theorem interrupt (alike : Alike A B p own own' m n) {signal signal' : Signal}
    (same : signal.Same p.rel signal') :
    StepAlike A B p (m.interrupt signal) (n.interrupt signal') := by
  cases same with
  | «break» =>
    exact .both (le_refl p) (alike.setControl (a := m.pending) (b := n.pending) .break nofun)
  | tailCall cd =>
    exact .both (le_refl p)
      (alike.setControl (a := m.pending) (b := n.pending) (.tailCall cd) nofun)
  | await ab => exact .both (le_refl p) (alike.setControl .suspend fun _ => .some ab)
  | error =>
    simp only [Machine.interrupt, Machine.fail, alike.locate]
    exact alike.raiseError _

theorem leaveLoop (alike : Alike A B p own own' m n) (edge : ¬ ∀ f ∈ own, f.loopEdge? = none) :
    EndAlike A B p (fun _ (_ _ : Unit) => True) m.registers n.registers (Exec.leaveLoop m)
      (Exec.leaveLoop n) := by
  rcases alike.unwind Frame.Same.loopEdge? with ⟨passed, _⟩ |
    ⟨above, above', rest, rest', f, g, isLoop, below, below', unwound⟩
  · exact absurd passed edge
  · simp only [Exec.leaveLoop, unwound.split, unwound.split']
    cases isLoop with
    | false =>
      exact .error (le_refl p) .error unwound.alike (m.registers_releaseAll above)
        (n.registers_releaseAll above')
    | true =>
      have left := unwound.alike.release unwound.left unwound.right
      rw [Machine.release_of_loop unwound.found, Machine.release_of_loop unwound.found'] at left
      exact .ok (le_refl p) trivial left (m.registers_releaseAll above)
        (n.registers_releaseAll above')

/-- The frames above the ground are known from the frames of the machine. -/
theorem own_eq {above above' : List Frame} (alike : Alike A B p above above' m n)
    (frames : m.frames.toList = own ++ A.frames) : above = own :=
  List.append_cancel_right (alike.frames.symm.trans frames)

theorem own_eq' {above above' : List Frame} (alike : Alike A B p above above' m n)
    (frames : n.frames.toList = own' ++ B.frames) : above' = own' :=
  List.append_cancel_right (alike.frames'.symm.trans frames)

theorem saved_ne_nil (alike : Alike A B p own own' m n) (calls : 0 < callsIn own) :
    m.scopes.saved ≠ [] ∧ n.scopes.saved ≠ [] := by
  obtain ⟨u, v, hm, hn, saved, depth⟩ := alike.saved
  cases saved with
  | nil =>
    rw [List.length_nil] at depth
    omega
  | cons _ _ =>
    rw [hm, hn]
    exact ⟨List.cons_ne_nil _ _, List.cons_ne_nil _ _⟩

/-- The closure of the topmost frame is replaced and its body is yet to run. -/
theorem replaceTop {c c₀ d d₀ : Closure Value} {floor : Nat}
    (alike : Alike A B p (.call c₀ floor :: own) (.call d₀ floor :: own') m n)
    (cd : c.Same p.rel d) {s t : Stack Frame} (left : s.toList = own ++ A.frames)
    (right : t.toList = own' ++ B.frames) :
    Alike A B p (.body c.body :: .call c floor :: own) (.body d.body :: .call d floor :: own')
      { m with frames := (s.push (.call c floor)).push (.body c.body) }
      { n with frames := (t.push (.call d floor)).push (.body d.body) } := by
  obtain ⟨_, same⟩ := List.forall₂_cons.1 alike.same
  refine alike.setFrames ?_ ?_ (.cons (.body cd.body) (.cons (.call cd) same)) rfl rfl
    ⟨nofun, alike.layered⟩ fun r only => ?_
  · simp [left]
  · simp [right]
  · have code := (alike.codeOnly r only).2.2.2
    have below := (List.forall_mem_cons.1 code).2
    exact List.forall_mem_cons.2 ⟨rfl, List.forall_mem_cons.2 ⟨rfl, below⟩⟩

theorem replaceCall (alike : Alike A B p own own' m n) {c d : Closure Value} (cd : c.Same p.rel d)
    (call : ¬ ∀ f ∈ own, f.callFloor? = none) :
    EndAlike A B p (fun _ (_ _ : Unit) => True) m.registers n.registers (Exec.replaceCall c m)
      (Exec.replaceCall d n) := by
  rcases alike.unwind Frame.Same.callFloor? with ⟨passed, _⟩ |
    ⟨above, above', rest, rest', f, g, floor, below, below', unwound⟩
  · exact absurd passed call
  · obtain ⟨c₀, rfl⟩ := Frame.callFloor?_eq_some unwound.found
    obtain ⟨d₀, rfl⟩ := Frame.callFloor?_eq_some unwound.found'
    have released := unwound.alike
    obtain ⟨saved, saved'⟩ := released.saved_ne_nil (by simp [Frame.isCall])
    rw [Exec.replaceCall_eq unwound.split, Exec.replaceCall_eq unwound.split',
      Scopes.enter_leave saved, Scopes.enter_leave saved']
    have entered := released.setActive cd.activation
    have bound := Parallel.bindParameters cd p _ _ _ _ (le_refl p) entered
    change EndAlike A B p _ (m.releaseAll above).registers (n.releaseAll above').registers _ _
      at bound
    rw [m.registers_releaseAll, n.registers_releaseAll] at bound
    refine bound.bind ?_
    intro q own₁ own₁' _ _ m' n' le _ ran ran' alike₁ hm hn
    have kept := (Exec.local_bindParameters c _ _ _ ran).1
    have kept' := (Exec.local_bindParameters d _ _ _ ran').1
    have own := alike₁.own_eq ((congrArg Stack.toList kept).trans unwound.frames)
    have own' := alike₁.own_eq' ((congrArg Stack.toList kept').trans unwound.frames')
    subst own own'
    exact .ok (le_refl q) trivial (alike₁.replaceTop (cd.grow le) unwound.left unwound.right) hm hn

end Alike

end Catena
