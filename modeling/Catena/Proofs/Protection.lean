import Catena.Proofs.Removal

set_option autoImplicit false

/-!
What a floor protects. As long as a frame that holds a floor stays, nothing that runs above it can
read or change the operands under that floor or the scopes saved up to there: two machines that
differ only in these run in lockstep.
-/

namespace Catena

/-- What lies below a frame that holds a floor, in two machines. -/
structure Base where
  lower : List Frame
  lower' : List Frame
  items : List Value
  items' : List Value
  saved : List Scope
  saved' : List Scope

/-- Grounds that consist of a base and of the frames `f` and `g`, which hold the same floor. -/
structure Footing (S : Base) (p : Pairing) (f g : Frame) (A B : Ground) : Prop where
  frames : A.frames = f :: S.lower
  frames' : B.frames = g :: S.lower'
  top : f.Same p.rel g
  lower : List.Forall₂ (Frame.Same p.rel) S.lower S.lower'
  holds : f.floor? ≠ none
  floors : B.floors = A.floors
  items : A.items = S.items
  items' : B.items = S.items'
  saved : A.saved = S.saved
  saved' : B.saved = S.saved'
  entering : A.entering = 0
  caller : f.isCall = true → S.saved ≠ [] ∧ S.saved' ≠ []

/-- Machines that are alike above a base. -/
def Standing (S : Base) (p : Pairing) (f g : Frame) (m n : Machine) : Prop :=
  ∃ A B own own', Footing S p f g A B ∧ Alike A B p own own' m n

/-- Two machines have gone the same way and still stand on their base. -/
inductive GoneAlike {α : Type} (S : Base) (p : Pairing) (f g : Frame) :
    α × Machine → α × Machine → Prop
  | intro {x q f' g' m n} : p ≤ q → Standing S q f' g' m n → f.Becomes f' → g.Becomes g' →
      GoneAlike S p f g (x, m) (x, n)

variable {S : Base} {p : Pairing} {f g : Frame} {own own' : List Frame} {A B : Ground}
  {m n : Machine}

theorem GoneAlike.ending {x y : Step × Machine} (gone : GoneAlike S p f g x y) :
    GoneAlike S p f g (Machine.ending x) (Machine.ending y) := by
  cases gone with
  | intro le standing left right => exact .intro le standing left right

namespace Footing

section

variable (footing : Footing S p f g A B)
include footing

theorem grow {q : Pairing} (le : p ≤ q) : Footing S q f g A B :=
  { footing with
    top := footing.top.mono le.1
    lower := footing.lower.imp fun _ _ same => same.mono le.1 }

theorem depths : A.frames.length = B.frames.length := by
  rw [footing.frames, footing.frames', List.length_cons, List.length_cons, footing.lower.length_eq]

theorem gone {α : Type} {q : Pairing} (le : p ≤ q) (alike : Alike A B q own own' m n) (x : α) :
    GoneAlike S p f g (x, m) (x, n) :=
  .intro le ⟨A, B, own, own', footing.grow le, alike⟩ (.same f) (.same g)

/-- A step that keeps the frame does not end with an error that goes past it. -/
theorem stepAlike {x y : Step × Machine} (step : StepAlike A B p x y)
    (stays : Machine.Stays S.lower.length m x.2) : GoneAlike S p f g x y := by
  cases step with
  | both le alike => exact footing.gone le alike _
  | @escapes q above above' e m' n' le alike passed =>
    have frames := alike.frames
    rw [footing.frames, ← List.singleton_append, ← List.append_assoc] at frames
    have gone := Machine.size_raiseError frames (List.forall_mem_append.2
      ⟨passed, List.forall_mem_singleton.2 (Frame.attemptHeight?_of_floor? footing.holds)⟩) e
    exact absurd stays (Machine.not_stays_of_size gone)

theorem turn (alike : Alike A B p own own' m n) (stays : Machine.Stays S.lower.length m m.turn.2) :
    GoneAlike S p f g m.turn n.turn := by
  have same := alike.same
  cases same with
  | nil =>
    have frames := alike.frames.trans footing.frames
    exact absurd stays (Machine.not_stays_of_size (Machine.size_turn frames footing.holds))
  | cons _ _ =>
    rcases alike.turn with turned | ⟨depths, _⟩
    · generalize m.turn = x at turned stays
      generalize n.turn = y at turned
      cases turned with
      | goesOn le alike' => exact footing.gone le alike' _
      | ends step => exact (footing.stepAlike step stays).ending
    · exact absurd footing.depths depths

theorem afterSignal {r s : Registers} {x y : EStateM.Result Signal Machine Unit}
    (ends : EndAlike A B p (fun _ (_ _ : Unit) => True) r s x y)
    (stays : Machine.Stays S.lower.length m (Machine.afterSignal x).2) :
    GoneAlike S p f g (Machine.afterSignal x) (Machine.afterSignal y) := by
  cases ends with
  | refused depths => exact absurd footing.depths depths
  | ok le _ alike => exact footing.gone le alike _
  | error le same alike =>
    exact (footing.stepAlike ((alike.interrupt same).lower le) stays).ending

end

end Footing

/-- The closure in the topmost frame of the ground is replaced and its body is yet to run. -/
theorem Alike.reground (alike : Alike A B p [] [] m n) {a b : List Value} (ab : SameAll p.rel a b)
    {fs fs' : List Frame} {s t : Stack Frame} (left : s.toList = .body a :: fs)
    (right : t.toList = .body b :: fs') :
    Alike { A with frames := fs } { B with frames := fs' } p [.body a] [.body b]
      { m with frames := s } { n with frames := t } :=
  { alike with
    frames := left
    frames' := right
    same := .cons (.body ab) .nil
    codeOnly := fun r only =>
      have ⟨registry, quotes, params, _⟩ := alike.codeOnly r only
      ⟨registry, quotes, params, List.forall_mem_singleton.2 rfl⟩
    layered := ⟨nofun, trivial⟩ }

/-- A tail call that finds no call above the ground replaces the closure in the topmost frame of the
ground, unless its parameters do not bind. -/
theorem Alike.replaceGround {c c₀ d d₀ : Closure Value} {floor floor' : Nat}
    {lower lower' : List Frame} (alike : Alike A B p own own' m n) (cd : c.Same p.rel d)
    (ground : A.frames = .call c₀ floor :: lower) (ground' : B.frames = .call d₀ floor' :: lower')
    (entering : A.entering = 0) (caller : A.saved ≠ [] ∧ B.saved ≠ [])
    (passed : ∀ f ∈ own, f.callFloor? = none) (passed' : ∀ f ∈ own', f.callFloor? = none) :
    (∃ q m' n', p ≤ q ∧ Exec.replaceCall c m = .ok () m' ∧ Exec.replaceCall d n = .ok () n' ∧
      Alike { A with frames := .call c floor :: lower }
        { B with frames := .call d floor' :: lower' } q [.body c.body] [.body d.body] m' n') ∨
    ∃ q e m' n', p ≤ q ∧ Exec.replaceCall c m = .error (.error e) m' ∧
      Exec.replaceCall d n = .error (.error e) n' ∧ Alike A B q [] [] m' n' := by
  have frames := alike.frames
  have frames' := alike.frames'
  have same := alike.same
  rw [ground] at frames
  rw [ground'] at frames'
  obtain ⟨below, split, left⟩ := Stack.split?_of_append frames passed (by rfl)
  obtain ⟨below', split', right⟩ := Stack.split?_of_append frames' passed' (by rfl)
  have here : (m.frames.drop own.length).toList = [] ++ A.frames := by
    simp [frames, ground]
  have here' : (n.frames.drop own'.length).toList = [] ++ B.frames := by
    simp [frames', ground']
  rw [← List.append_nil own, ← List.append_nil own'] at alike
  have released := alike.releaseAll same here here'
  -- All scopes above the ground have been left, so the one that is replaced is that of the frame.
  have saved : (m.releaseAll own).scopes.saved ≠ [] ∧ (n.releaseAll own').scopes.saved ≠ [] := by
    obtain ⟨u, v, hm, hn, scopes, depth⟩ := released.saved
    rw [callsIn_nil, entering] at depth
    cases scopes with
    | cons => cases depth
    | nil => exact ⟨fun h => caller.1 (hm.symm.trans h), fun h => caller.2 (hn.symm.trans h)⟩
  rw [Exec.replaceCall_eq split, Exec.replaceCall_eq split', Scopes.enter_leave saved.1,
    Scopes.enter_leave saved.2]
  have bound := Parallel.bindParameters cd p _ _ _ _ (le_refl p) (released.setActive cd.activation)
  simp only [Bind.bind, EStateM.bind]
  generalize started : ({ m.releaseAll own with
    frames := m.frames.drop own.length
    scopes := { (m.releaseAll own).scopes with active := c.activation } } : Machine) = m₁
    at bound ⊢
  generalize started' : ({ n.releaseAll own' with
    frames := n.frames.drop own'.length
    scopes := { (n.releaseAll own').scopes with active := d.activation } } : Machine) = n₁
    at bound ⊢
  have steady := Exec.steady_bindParameters c m₁
  have steady' := Exec.steady_bindParameters d n₁
  have frames₁ : m₁.frames.toList = [] ++ A.frames := by rw [← started]; exact here
  have frames₁' : n₁.frames.toList = [] ++ B.frames := by rw [← started']; exact here'
  have fits := (Exec.steady_bindParameters c).not_refused m₁
  have fits' := (Exec.steady_bindParameters d).not_refused n₁
  generalize Exec.bindParameters c m₁ = x at bound steady fits ⊢
  generalize Exec.bindParameters d n₁ = y at bound steady' fits' ⊢
  cases bound with
  | refused _ deeper => exact (deeper.either.elim fits fits').elim
  | @error q above above' _ _ m' n' le signals alike' =>
    obtain ⟨level, e, rfl, _⟩ := steady
    cases signals with
    | error =>
      have own := alike'.own_eq ((congrArg Stack.toList level.1).trans frames₁)
      have own' := alike'.own_eq' ((congrArg Stack.toList steady'.1.1).trans frames₁')
      subst own own'
      exact .inr ⟨q, e, m', n', le, rfl, rfl, alike'⟩
  | @ok q above above' _ _ m' n' le _ alike' =>
    have own := alike'.own_eq ((congrArg Stack.toList steady.1).trans frames₁)
    have own' := alike'.own_eq' ((congrArg Stack.toList steady'.1).trans frames₁')
    subst own own'
    refine .inl ⟨q, _, _, le, rfl, rfl, alike'.reground (cd.grow le).body ?_ ?_⟩
    · rw [Stack.toList_push, Stack.toList_push, left]
    · rw [Stack.toList_push, Stack.toList_push, right]

namespace Footing

/-- A tail call in the closure of the topmost frame of the ground. -/
theorem replaceCall {c c₀ d d₀ : Closure Value} {floor : Nat}
    (footing : Footing S p (.call c₀ floor) (.call d₀ floor) A B)
    (alike : Alike A B p own own' m n) (cd : c.Same p.rel d)
    (passed : ∀ f ∈ own, f.callFloor? = none) (passed' : ∀ f ∈ own', f.callFloor? = none)
    (stays : Machine.Stays S.lower.length m (Machine.afterSignal (Exec.replaceCall c m)).2) :
    GoneAlike S p (.call c₀ floor) (.call d₀ floor) (Machine.afterSignal (Exec.replaceCall c m))
      (Machine.afterSignal (Exec.replaceCall d n)) := by
  have caller : A.saved ≠ [] ∧ B.saved ≠ [] := by
    rw [footing.saved, footing.saved']
    exact footing.caller rfl
  rcases alike.replaceGround cd footing.frames footing.frames' footing.entering caller passed
    passed' with ⟨q, m', n', le, ran, ran', regrounded⟩ | ⟨q, e, m', n', le, ran, ran', alike'⟩
  · rw [ran, ran']
    refine .intro le ⟨_, _, _, _, ?_, regrounded⟩ (.replaced c₀ c floor) (.replaced d₀ d floor)
    exact
      { footing.grow le with
        frames := rfl
        frames' := rfl
        top := .call (cd.grow le)
        holds := nofun }
  · rw [ran] at stays
    rw [ran, ran']
    exact (footing.stepAlike ((alike'.interrupt .error).lower le) stays).ending

theorem heedTailCall (footing : Footing S p f g A B) (alike : Alike A B p own own' m n)
    {c d : Closure Value} (cd : c.Same p.rel d)
    (stays : Machine.Stays S.lower.length m (Machine.afterSignal (Exec.replaceCall c m)).2) :
    GoneAlike S p f g (Machine.afterSignal (Exec.replaceCall c m))
      (Machine.afterSignal (Exec.replaceCall d n)) := by
  have frames := alike.frames
  have frames' := alike.frames'
  rw [footing.frames] at frames
  rw [footing.frames'] at frames'
  by_cases passed : ∀ f ∈ own, f.callFloor? = none
  · have passed' := passed_related Frame.Same.callFloor? alike.same passed
    have top := footing.top
    have holds := footing.holds
    cases top with
    | call => exact footing.replaceCall alike cd passed passed' stays
    | @update a b field s t floor =>
      have front : ∀ f ∈ own ++ [.update a field s floor], f.callFloor? = none :=
        List.forall_mem_append.2 ⟨passed, List.forall_mem_singleton.2 rfl⟩
      have front' : ∀ f ∈ own' ++ [.update b field t floor], f.callFloor? = none :=
        List.forall_mem_append.2 ⟨passed', List.forall_mem_singleton.2 rfl⟩
      have here := Machine.frameAt?_of_append frames
      rw [← List.singleton_append, ← List.append_assoc] at frames frames'
      -- A call below would have taken the frame away; without one, nothing has happened yet.
      rcases Exec.replaceCall_past frames front c with ⟨free, failed⟩ | gone
      · have free' := passed_related Frame.Same.callFloor? footing.lower free
        have failed' : Exec.replaceCall d n = .error (.error .tailCallOutsideFunction) n := by
          refine Exec.replaceCall_of_passed ?_ d
          rw [frames']
          exact List.forall_mem_append.2 ⟨front', free'⟩
        rw [failed] at stays
        rw [failed, failed']
        exact (footing.stepAlike (alike.interrupt .error) stays).ending
      · obtain ⟨f₁, g₁, found, found', becomes⟩ := stays
        obtain ⟨code, rfl⟩ := gone g₁ found'
        have update := Option.some.inj (found.symm.trans here)
        rw [update] at becomes
        exact absurd rfl (becomes.not_body holds code)
    | _ => exact absurd rfl holds
  · exact footing.afterSignal (alike.replaceCall cd passed) stays

theorem heed (footing : Footing S p f g A B) (alike : Alike A B p own own' m n)
    (stays : Machine.Stays S.lower.length m m.heed.2) : GoneAlike S p f g m.heed n.heed := by
  have control : m.control.Same p.rel n.control := alike.registers.control
  have calm : Alike A B p own own' { m with control := .none } { n with control := .none } :=
    alike.setControl .none nofun
  have frames := calm.frames
  rw [footing.frames] at frames
  rw [Machine.heed] at stays ⊢
  rw [Machine.heed]
  generalize m.control = x at control stays ⊢
  generalize n.control = y at control ⊢
  cases control with
  | none => exact footing.gone (le_refl p) alike _
  | suspend => exact footing.gone (le_refl p) alike _
  | throw => exact (footing.stepAlike (calm.raiseError _) stays).ending
  | «break» =>
    by_cases passed : ∀ f ∈ own, f.loopEdge? = none
    · have gone := Machine.size_leaveLoop_floor frames passed footing.holds
      exact absurd stays (Machine.not_stays_of_size gone)
    · exact footing.afterSignal (calm.leaveLoop passed) stays
  | tailCall cd => exact footing.heedTailCall calm cd stays

end Footing

namespace Standing

theorem frameAt? (standing : Standing S p f g m n) :
    m.frameAt? S.lower.length = some f ∧ n.frameAt? S.lower.length = some g := by
  obtain ⟨A, B, own, own', footing, alike⟩ := standing
  have frames := alike.frames
  have frames' := alike.frames'
  rw [footing.frames] at frames
  rw [footing.frames'] at frames'
  refine ⟨Machine.frameAt?_of_append frames, ?_⟩
  rw [footing.lower.length_eq]
  exact Machine.frameAt?_of_append frames'

theorem stays {q : Pairing} {f' g' : Frame} {m' n' : Machine} (before : Standing S p f g m n)
    (after : Standing S q f' g' m' n') (becomes : g.Becomes g') :
    Machine.Stays S.lower.length n n' :=
  ⟨g, g', before.frameAt?.2, after.frameAt?.2, becomes⟩

/-- What one machine does up to the end of a step, the other does as well. -/
theorem stepsBy {s : Step} {m' : Machine} (standing : Standing S p f g m n)
    (steps : m.StepsBy (Machine.Stays S.lower.length) s m') :
    ∃ n' q f' g', n.StepsBy (Machine.Stays S.lower.length) s n' ∧ p ≤ q ∧
      Standing S q f' g' m' n' := by
  suffices both : ∃ n', n.StepsBy (Machine.Stays S.lower.length) s n' ∧
      ∃ q f g, p ≤ q ∧ Standing S q f g m' n' by
    obtain ⟨n', steps', q, f', g', le, after⟩ := both
    exact ⟨n', q, f', g', steps', le, after⟩
  refine steps.matched (Q := fun m n => ∃ q f g, p ≤ q ∧ Standing S q f g m n) ?_ ?_
    ⟨p, f, g, le_refl p, standing⟩
  · rintro m n m' x ⟨q, f, g, le, before⟩ turned stays
    have ⟨A, B, own, own', footing, alike⟩ := before
    have gone := footing.turn alike (by rw [turned]; exact stays)
    rw [turned] at gone
    generalize n.turn = y at gone ⊢
    cases gone with
    | intro le' after _ becomes =>
      exact ⟨_, rfl, before.stays after becomes, _, _, _, le_trans le le', after⟩
  · rintro m n m' x ⟨q, f, g, le, before⟩ heeded stays
    have ⟨A, B, own, own', footing, alike⟩ := before
    have gone := footing.heed alike (by rw [heeded]; exact stays)
    rw [heeded] at gone
    generalize n.heed = y at gone ⊢
    cases gone with
    | intro le' after _ becomes =>
      exact ⟨_, rfl, before.stays after becomes, _, _, _, le_trans le le', after⟩

end Standing

/-! ### One machine -/

theorem Machine.exists_of_frameAt? {i : Nat} (found : m.frameAt? i = some f) :
    ∃ above below, m.frames.toList = above ++ f :: below ∧ below.length = i := by
  have inside : i < m.frames.toList.reverse.length := (List.getElem?_eq_some_iff.1 found).1
  have here := (List.getElem?_eq_some_iff.1 found).2
  refine ⟨(m.frames.toList.reverse.drop (i + 1)).reverse, (m.frames.toList.reverse.take i).reverse,
    ?_, ?_⟩
  · have whole := List.take_append_drop i m.frames.toList.reverse
    rw [List.drop_eq_getElem_cons inside, here] at whole
    have whole := congrArg List.reverse whole
    simpa using whole.symm
  · simp only [List.length_reverse] at inside ⊢
    simp
    omega

theorem floorAbove_append {base floor : Nat} (holds : f.floor? = some floor)
    (above below : List Frame) :
    floorAbove base (above ++ f :: below) = floorAbove floor above := by
  rw [floorAbove, floorAbove, floorsOf_append, floorsOf_cons, holds]
  cases floorsOf above <;> rfl

theorem Layered.above {base floor : Nat} {above below : List Frame}
    (layered : Layered base (above ++ f :: below)) (holds : f.floor? = some floor) :
    Layered floor above := by
  induction above with
  | nil => trivial
  | cons frame above ih =>
    refine ⟨fun height mark => ?_, ih layered.2⟩
    have le := layered.1 height mark
    rwa [List.append_eq, floorAbove_append holds] at le

/-- A machine whose frames, floors and scopes are aligned stands on each frame that holds a
floor. -/
theorem Aligned.standing {i floor : Nat} (aligned : Aligned m) (found : m.frameAt? i = some f)
    (holds : f.floor? = some floor) :
    ∃ S : Base, Standing S (.self m.nextId) f f m m ∧ S.lower.length = i ∧
      S.items.length = floor ∧ S.saved.length = callsIn (f :: S.lower) := by
  obtain ⟨above, below, frames, depth⟩ := Machine.exists_of_frameAt? found
  have same (frames : List Frame) :
      List.Forall₂ (Frame.Same (Pairing.self m.nextId).rel) frames frames :=
    List.forall₂_same.2 fun f _ => f.same_self fun _ => rfl
  have floors := aligned.floors
  have layered := aligned.layered
  have covered := aligned.covered
  have saved := aligned.saved
  rw [frames] at floors layered covered saved
  rw [floorsOf_append, floorsOf_cons, holds] at floors
  rw [floorAbove_append holds] at covered
  rw [callsIn_append] at saved
  have reach : floor ≤ m.operands.count := Nat.le_trans (layered.above holds).base_le covered
  -- The operands under the floor and the scopes saved up to the frame.
  let items := m.operands.items.toList.drop (m.operands.count - floor)
  let scopes := m.scopes.saved.drop (callsIn above)
  have height : items.length = floor := by
    simp only [items, List.length_drop, Stack.length_eq]
    change m.operands.count - (m.operands.count - floor) = floor
    omega
  have callers : scopes.length = callsIn (f :: below) := by
    simp only [scopes, List.length_drop]
    omega
  let A : Ground := ⟨f :: below, floor :: floorsOf below, items, scopes, 0, height.symm, none⟩
  have alike : Alike A A (.self m.nextId) above above m m :=
    { aligned.alike with
      frames := frames
      frames' := frames
      same := same above
      floors := floors
      floors' := floors
      layered := height ▸ layered.above holds
      covered := height ▸ covered
      items := ⟨m.operands.items.toList.take (m.operands.count - floor),
        m.operands.items.toList.take (m.operands.count - floor), (List.take_append_drop ..).symm,
        (List.take_append_drop ..).symm, List.forall₂_same.2 fun v _ => v.same_self fun _ => rfl⟩
      height := rfl
      saved := ⟨m.scopes.saved.take (callsIn above), m.scopes.saved.take (callsIn above),
        (List.take_append_drop ..).symm, (List.take_append_drop ..).symm,
        List.forall₂_same.2 fun s _ => s.same_self fun _ => rfl, by
          rw [List.length_take]
          change min _ _ = callsIn above + 0
          omega⟩
      entering := rfl
      codeOnly := nofun }
  refine ⟨⟨below, below, items, items, scopes, scopes⟩, ⟨A, A, above, above, ?_, alike⟩, depth,
    height, callers⟩
  refine ⟨rfl, rfl, f.same_self fun _ => rfl, same below, by simp [holds], rfl, rfl, rfl, rfl, rfl,
    rfl, fun call => ?_⟩
  have some : scopes ≠ [] := by
    rw [← List.length_pos_iff, callers, callsIn_cons, call]
    exact Nat.succ_pos _
  exact ⟨some, some⟩

/-- How many calls there are up to a position; each has saved a scope. -/
def Machine.callsUpTo (m : Machine) (i : Nat) : Nat :=
  callsIn (m.frames.toList.reverse.take (i + 1))

theorem Standing.callsUpTo (standing : Standing S p f g m n) :
    m.callsUpTo S.lower.length = callsIn (f :: S.lower) := by
  obtain ⟨A, B, own, own', footing, alike⟩ := standing
  have frames := alike.frames
  rw [footing.frames] at frames
  rw [Machine.callsUpTo, frames, List.reverse_append, List.take_left' (by simp)]
  exact List.countP_reverse

/-- What a base holds can be read off the machine. -/
theorem Standing.below (standing : Standing S p f g m n) :
    (S.items.length ≤ m.operands.count ∧
      m.operands.toList.take S.items.length = S.items.reverse) ∧
    S.saved.length ≤ m.scopes.depth ∧
      m.scopes.saved.reverse.take S.saved.length = S.saved.reverse := by
  obtain ⟨A, B, own, own', footing, alike⟩ := standing
  obtain ⟨u, _, items, _⟩ := alike.items
  obtain ⟨v, _, saved, _⟩ := alike.saved
  have count := Operands.Alike.length_above items
  rw [footing.items] at items count
  rw [footing.saved] at saved
  refine ⟨⟨by omega, ?_⟩, ?_, ?_⟩
  · rw [Operands.toList, items, List.reverse_append, List.take_left' (by simp)]
  · rw [Scopes.depth, saved, List.length_append]
    omega
  · rw [saved, List.reverse_append, List.take_left' (by simp)]

/-- In every state of a run on an idle machine and for each frame there that holds a floor: a step
that keeps the frame keeps the operands under the floor and the scopes that were saved by this frame
and by those below it. -/
theorem step_protects {m₀ m₁ m m' : Machine} {i floor : Nat} {f : Frame} {s : Step}
    (idle : m₀.Idle) (loaded : m₀.Loaded m₁) (course : m₁.Course m)
    (frame : m.frameAt? i = some f) (holds : f.floor? = some floor)
    (step : m.StepsBy (Machine.Stays i) s m') :
    m.step = (s, m') ∧
      (floor ≤ m.operands.count ∧
        m'.operands.toList.take floor = m.operands.toList.take floor) ∧
      m.callsUpTo i ≤ m.scopes.depth ∧
        m'.scopes.saved.reverse.take (m.callsUpTo i) =
          m.scopes.saved.reverse.take (m.callsUpTo i) := by
  obtain ⟨aligned, _⟩ := course.sound (loaded.sound idle)
  obtain ⟨S, standing, rfl, rfl, callers⟩ := aligned.standing frame holds
  obtain ⟨n', q, f', g', _, _, after⟩ := standing.stepsBy step
  obtain ⟨⟨reach, operands⟩, deep, scopes⟩ := standing.below
  obtain ⟨⟨_, operands'⟩, _, scopes'⟩ := after.below
  rw [standing.callsUpTo, ← callers]
  exact ⟨step.step_eq, ⟨reach, operands'.trans operands.symm⟩, deep, scopes'.trans scopes.symm⟩

/-- A closure that runs above an operand of its caller. -/
theorem step_protects_caller :
    ∃ m m' : Machine, m.StepsBy (Machine.Stays 1) .checkpoint m' ∧ m.callsUpTo 1 = 1 ∧
      m.operands.toList = [.int 5] ∧ m'.operands.toList.take 1 = m.operands.toList.take 1 ∧
      m'.scopes.saved.reverse.take 1 = m.scopes.saved.reverse.take 1 := by
  have idle : Machine.knowing.Idle := ⟨rfl, rfl, rfl, rfl, rfl, rfl⟩
  let m₁ := Machine.knowing.load [⟨.int 5, .none⟩, ⟨.name "f", .none⟩]
  have course : m₁.Course m₁.turn.2.turn.2 :=
    .step (s := .checkpoint)
      (.step (s := .checkpoint) .start (Machine.step_of_turn rfl rfl) (by decide))
      (Machine.step_of_turn rfl rfl) (by decide)
  have step : m₁.turn.2.turn.2.StepsBy (Machine.Stays 1) .checkpoint m₁.turn.2.turn.2.turn.2 :=
    .more rfl ⟨_, _, rfl, rfl, .same _⟩ (.last rfl ⟨_, _, rfl, rfl, .same _⟩)
  obtain ⟨_, ⟨_, operands⟩, _, scopes⟩ :=
    step_protects idle (.program _) course rfl rfl step
  exact ⟨_, _, step, rfl, rfl, operands, scopes⟩

end Catena
