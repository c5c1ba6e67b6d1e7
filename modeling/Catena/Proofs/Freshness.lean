import Catena.Proofs.Settling

set_option autoImplicit false

/-!
Identities that are in use. Arrays, quotations and closures are told apart by their identities, so a
machine must not give out one that something it holds has already. A new machine holds nothing, and
a run leaves nothing with an identity that is still to be given out: what a machine holds is paired
with something, and only identities that were given out are paired.
-/

namespace Catena

/-- The identities that a machine has given out, paired with themselves. -/
def Machine.Given (m : Machine) (i j : Nat) : Prop := i = j ∧ i < m.nextId

/-- Nothing that the machine can get at has an identity that is still to be given out. -/
structure Machine.Fresh (m : Machine) : Prop where
  operands : SameAll m.Given m.operands.toList m.operands.toList
  active : m.scopes.active.Same m.Given m.scopes.active
  registry : Registry.Same m.Given m.registry m.registry

/-- A second machine that has given out more identities than the first. -/
def Machine.ahead (m : Machine) {right : Nat} (le : m.nextId ≤ right) : Pairing where
  rel := m.Given
  left := m.nextId
  right := right
  one := ⟨fun h h' => h.1.trans h'.1.symm, fun h h' => h.1.symm.trans h'.1⟩
  supply := .inr fun i j h => ⟨h.2, by have := h.1; have := h.2; omega⟩

theorem Machine.Fresh.items {m : Machine} (fresh : m.Fresh) :
    List.Forall₂ (Value.Same m.Given) m.operands.items.toList m.operands.items.toList := by
  have values := List.rel_reverse (sameAll_iff.1 fresh.operands)
  rw [Operands.toList, List.reverse_reverse] at values
  exact values

/-! ### New machines -/

theorem Bindings.mem_replace {α : Type} {name : String} {value : α}
    {entries : List (String × α)} {entry : String × α}
    (member : entry ∈ Bindings.replace name value entries) :
    entry = (name, value) ∨ entry ∈ entries := by
  induction entries with
  | nil => exact .inl (List.mem_singleton.1 member)
  | cons first rest ih =>
    rw [Bindings.replace] at member
    split at member
    · rcases List.mem_cons.1 member with here | later
      · exact .inl here
      · exact .inr (List.mem_cons_of_mem _ later)
    · rcases List.mem_cons.1 member with rfl | later
      · exact .inr List.mem_cons_self
      · exact (ih later).imp_right (List.mem_cons_of_mem _)

/-- The operators of the language hold no values. -/
theorem Registry.standard_same (p : Nat → Nat → Prop) :
    Registry.Same p .standard .standard := by
  refine List.forall₂_same.2 fun entry member => ⟨rfl, ?_⟩
  have primitive : ∀ (all : List Primitive) (r : Registry),
      (∀ entry ∈ r.entries, entry.2.Same p entry.2) →
      ∀ entry ∈ (all.foldl (fun r q => r.register q.name (.primitive q)) r).entries,
        entry.2.Same p entry.2 := by
    intro all
    induction all with
    | nil => exact fun r known => known
    | cons q all ih =>
      refine fun r known => ih _ fun entry member => ?_
      rcases Bindings.mem_replace member with rfl | before
      · exact .primitive
      · exact known entry before
  exact primitive Primitive.all .empty (List.forall_mem_nil _) entry member

theorem Machine.fresh_new : (Machine.new .standard).Fresh :=
  ⟨.nil, .mk .nil, Registry.standard_same _⟩

/-! ### Runs -/

/-- Whatever the machine holds is paired with something in another machine, and only identities that
were given out are paired. -/
def Machine.Accounted (m : Machine) : Prop :=
  ∃ n p own own', p.Bounded ∧ Alike .empty .empty p own own' m n

section

variable {p : Pairing} {own own' : List Frame} {m n m' : Machine} {x y : Step × Machine}

theorem Registry.Same.left {p q : Nat → Nat → Prop} (h : ∀ i j, p i j → q i i) {r s : Registry}
    (same : Registry.Same p r s) : Registry.Same q r r := by
  have left := same.imp fun _ _ xy => And.intro (xy.2.left h) xy
  obtain ⟨each, _⟩ := (List.forall₂_and_left _ _).1 left
  exact List.forall₂_same.2 fun entry member => ⟨rfl, each entry member⟩

theorem Alike.machine_fresh (alike : Alike .empty .empty p own own' m n) (bounded : p.Bounded) :
    m.Fresh := by
  have given : ∀ i j, p.rel i j → m.Given i i := by
    intro i j paired
    refine ⟨rfl, ?_⟩
    rw [alike.nextId]
    exact (bounded i j paired).1
  obtain ⟨u, v, items, _, values⟩ := alike.items
  refine ⟨?_, alike.active.left given, alike.registers.registry.left given⟩
  have own := (sameAll_iff.2 values).left given
  rw [Operands.toList, items]
  exact sameAll_iff.2 (List.rel_reverse (by simpa [Ground.empty] using sameAll_iff.1 own))

/-- Nothing is left above the empty ground. -/
theorem Alike.releaseEmpty (alike : Alike .empty .empty p own own' m n) :
    Alike .empty .empty p [] [] { m.releaseAll m.frames.toList with frames := .empty }
      { n.releaseAll n.frames.toList with frames := .empty } := by
  have same := alike.same
  rw [alike.frames.trans (List.append_nil own), alike.frames'.trans (List.append_nil own')]
  rw [← List.append_nil own, ← List.append_nil own'] at alike
  exact alike.releaseAll same (s := .empty) (t := .empty) rfl rfl

theorem StepAlike.accounted (step : StepAlike .empty .empty p x y) (bounded : p.Bounded) :
    x.2.Accounted := by
  cases step with
  | both le alike => exact ⟨_, _, _, _, le.2.2.2.2 bounded, alike⟩
  | @escapes q own own' e m n le alike passed _ =>
    have frames : m.frames.toList = own := alike.frames.trans (List.append_nil own)
    subst frames
    rw [Machine.raiseError_of_passed passed]
    exact ⟨_, _, _, _, le.2.2.2.2 bounded, alike.abort rfl⟩

theorem TurnAlike.accounted {x y : Option Step × Machine} (turned : TurnAlike .empty .empty p x y)
    (bounded : p.Bounded) : x.2.Accounted := by
  cases turned with
  | goesOn le alike => exact ⟨_, _, _, _, le.2.2.2.2 bounded, alike⟩
  | ends step => exact step.accounted bounded

namespace Alike

theorem turn_empty (alike : Alike .empty .empty p own own' m n) :
    TurnAlike .empty .empty p m.turn n.turn := by
  have same := alike.same
  cases same with
  | cons _ _ => exact alike.turn.resolve_right fun limit => limit.1 rfl
  | nil =>
    have top : m.frames.pop? = none := Stack.pop?_eq_none_iff.2 alike.frames
    have top' : n.frames.pop? = none := Stack.pop?_eq_none_iff.2 alike.frames'
    have collecting : n.isCollecting = m.isCollecting := by
      rw [Machine.isCollecting, Machine.isCollecting, alike.openQuotes, alike.openParams]
    simp only [Machine.turn, top, top', Machine.finish, collecting]
    refine .ends ?_
    by_cases unclosed : m.isCollecting = true
    · rw [if_pos unclosed, if_pos unclosed]
      exact alike.interrupt (.error (e := .unclosed))
    · rw [if_neg unclosed, if_neg unclosed]
      exact .both (le_refl p) alike

theorem heed_empty (alike : Alike .empty .empty p own own' m n) :
    TurnAlike .empty .empty p m.heed n.heed := by
  have calm : Alike .empty .empty p own own' { m with control := .none }
      { n with control := .none } := alike.setControl .none nofun
  have same : m.control.Same p.rel n.control := alike.registers.control
  simp only [Machine.heed]
  generalize m.control = c at same
  generalize n.control = d at same
  cases same with
  | none => exact .goesOn (le_refl p) alike
  | suspend => exact .ends (.both (le_refl p) alike)
  | throw => exact .ends (calm.raiseError _)
  | «break» =>
    by_cases edge : ∀ f ∈ own, f.loopEdge? = none
    · have edge' := passed_related Frame.Same.loopEdge? calm.same edge
      dsimp only
      rw [Exec.leaveLoop_of_passed (by rw [calm.frames]; simpa [Ground.empty] using edge),
        Exec.leaveLoop_of_passed (by rw [calm.frames']; simpa [Ground.empty] using edge')]
      exact .ends (calm.releaseEmpty.interrupt .error)
    · exact (calm.leaveLoop edge).afterSignal.resolve_right fun limit => limit.1 rfl
  | tailCall cd =>
    by_cases call : ∀ f ∈ own, f.callFloor? = none
    · have call' := passed_related Frame.Same.callFloor? calm.same call
      dsimp only
      rw [Exec.replaceCall_of_passed (by rw [calm.frames]; simpa [Ground.empty] using call),
        Exec.replaceCall_of_passed (by rw [calm.frames']; simpa [Ground.empty] using call')]
      exact .ends (calm.interrupt .error)
    · exact (calm.replaceCall cd call).afterSignal.resolve_right fun limit => limit.1 rfl

end Alike

namespace Machine

theorem Accounted.pass (accounted : m.Accounted) : m.pass.2.Accounted := by
  obtain ⟨n, p, own, own', bounded, alike⟩ := accounted
  by_cases calm : m.control = .none
  · rw [pass_of_calm calm]
    exact alike.turn_empty.accounted bounded
  · rw [pass_of_control calm]
    exact alike.heed_empty.accounted bounded

theorem Accounted.moves (accounted : m.Accounted) (moves : Moves m m') : m'.Accounted := by
  cases moves with
  | pass _ passed _ =>
    have next := accounted.pass
    rw [passed] at next
    exact next
  | answer asleep waits waited =>
    obtain ⟨n, p, own, own', bounded, alike⟩ := accounted
    have pending : Option.Rel (Pending.Same p.rel) m.pending n.pending :=
      alike.registers.pending asleep
    rw [waits] at pending
    generalize n.pending = waits' at pending
    cases pending with
    | some same =>
      cases same with
      | mk futures =>
        rcases futures.wait with ⟨_, reply', _, replied, _, replies⟩ | ⟨never, _⟩
        · rw [waited] at replied
          cases replied
          exact ⟨n.answer reply', p, own, own', bounded, alike.answer replies⟩
        · rw [waited] at never
          cases never
  | resume =>
    obtain ⟨n, p, own, own', bounded, alike⟩ := accounted
    exact ⟨n.resume none, p, own, own', bounded,
      alike.setControl (a := m.pending) (b := n.pending) .none nofun⟩

/-- By induction on the moves. -/
theorem SettlesIn.fresh {k : Nat} {o : Outcome} (settles : m.SettlesIn k o m')
    (accounted : m.Accounted) : m'.Fresh := by
  induction settles with
  | last ends =>
    obtain ⟨_, passed, _⟩ := ends
    have next := accounted.pass
    rw [passed] at next
    obtain ⟨n, p, own, own', bounded, alike⟩ := next
    exact alike.machine_fresh bounded
  | more moves _ ih => exact ih (accounted.moves moves)

end Machine

theorem Machine.Fresh.accounted (fresh : m.Fresh) (idle : m.Idle) (tokens : List Token) :
    (m.load tokens).Accounted := by
  refine ⟨m.load tokens, m.ahead (Nat.le_refl _), [.program tokens], [.program tokens], ?_, ?_⟩
  · rintro i _ ⟨rfl, lt⟩
    exact ⟨lt, lt⟩
  · exact {
      frames := rfl
      frames' := rfl
      same := .cons .program .nil
      floors := idle.floors
      floors' := idle.floors
      layered := ⟨nofun, trivial⟩
      covered := Nat.zero_le _
      items := ⟨_, _, (List.append_nil _).symm, (List.append_nil _).symm, fresh.items⟩
      height := rfl
      saved := ⟨[], [], idle.saved, idle.saved, .nil, rfl⟩
      entering := rfl
      active := fresh.active
      registers := ⟨fresh.registry, rfl, .none, nofun⟩
      openQuotes := rfl
      openParams := rfl
      origin := rfl
      nextId := rfl
      nextId' := rfl
      codeOnly := nofun }

/-- A run leaves its machine fit for the next one. -/
theorem Machine.Fresh.finish {tokens : List Token} {limit : Nat} {o : Outcome} {r : Run}
    (fresh : m.Fresh) (idle : m.Idle)
    (finished : (Run.start m tokens).finish .unlimited limit = (some o, r)) : r.machine.Fresh := by
  obtain ⟨k, settles⟩ := Run.settlesIn_of_finishFrom (idle.opened tokens) finished
  exact settles.fresh (fresh.accounted idle tokens)

end

end Catena
