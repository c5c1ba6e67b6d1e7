import Catena.Proofs.Protection

set_option autoImplicit false

/-!
Closures do not depend on their callers. Two machines that have just entered a closure and agree on
everything but the operands under its floor and the scopes of the callers go the same way for as
long as the frame of the closure is there.
-/

namespace Catena

/-- Two machines agree on everything but the operands under a height and what the saved scopes
hold. -/
structure AgreeAbove (p : Pairing) (height : Nat) (m n : Machine) : Prop where
  registers : m.registers.Same p.rel n.registers
  frames : List.Forall₂ (Frame.Same p.rel) m.frames.toList n.frames.toList
  floors : n.operands.floors = m.operands.floors
  openQuotes : n.openQuotes = m.openQuotes
  openParams : n.openParams = m.openParams
  origin : n.origin = m.origin
  active : m.scopes.active.Same p.rel n.scopes.active
  above : SameAll p.rel (m.operands.valuesFrom height) (n.operands.valuesFrom height)
  count : n.operands.count = m.operands.count
  depth : n.scopes.depth = m.scopes.depth
  nextId : m.nextId = p.left
  nextId' : n.nextId = p.right

/-- What agreement comes to when identities stand for themselves. -/
structure EqualAbove (height : Nat) (m n : Machine) : Prop where
  frames : n.frames.toList = m.frames.toList
  floors : n.operands.floors = m.operands.floors
  active : n.scopes.active = m.scopes.active
  above : n.operands.valuesFrom height = m.operands.valuesFrom height

/-- Steps all of whose turns satisfy `R`; with each step comes the answer, if there is one, to the
operation that it waits for. -/
inductive Machine.RunsBy (R : Machine → Machine → Prop) :
    List (Option (Reply Value)) → List Step → Machine → Machine → Prop
  | nil {m} : RunsBy R [] [] m m
  | step {m s m₁ replies steps m'} : m.StepsBy R s m₁ → RunsBy R replies steps m₁ m' →
      RunsBy R (none :: replies) (s :: steps) m m'
  | answer {m m₁ reply replies steps m'} : m.StepsBy R .suspended m₁ →
      RunsBy R replies steps (m₁.answer reply) m' →
      RunsBy R (some reply :: replies) (.suspended :: steps) m m'

/-- What a closure finds when it has been entered. -/
theorem Exec.enter_eq_ok {c : Closure Value} {m₀ m : Machine}
    (entered : Exec.enter c m₀ = .ok () m) :
    m.frames.toList = .body c.body :: .call c m.operands.count :: m₀.frames.toList ∧
      (∃ floors, m.operands.floors = m.operands.count :: floors) ∧ m.scopes.saved ≠ [] := by
  obtain ⟨m₁, bound, rfl⟩ := bound_of_enter entered
  have level := steady_bindParameters c { m₀ with scopes := m₀.scopes.enter c.activation }
  rw [bound] at level
  refine ⟨?_, ⟨m₁.operands.floors, rfl⟩, ?_⟩
  · simp [level.1]
  · rw [level.2]
    exact List.cons_ne_nil _ _

variable {S : Base} {p : Pairing} {f g : Frame} {m n : Machine}

namespace AgreeAbove

theorem equalAbove {height k : Nat} (agree : AgreeAbove p height m n) (le : .self k ≤ p) :
    EqualAbove height m n := by
  have equal : ∀ i j, p.rel i j → j = i := fun _ _ paired => Pairing.eq_of_self_le le paired
  have frames := eq_of_forall₂ (fun _ _ fg => fg.eq equal) agree.frames
  exact ⟨frames, agree.floors, agree.active.eq equal, agree.above.eq equal⟩

/-- Machines that agree above the floor of a closure stand on the frame of that closure. -/
theorem standing {c d : Closure Value} {m₀ n₀ : Machine}
    (agree : AgreeAbove p m.operands.floor m n) (entered : Exec.enter c m₀ = .ok () m)
    (entered' : Exec.enter d n₀ = .ok () n) :
    Standing ⟨m₀.frames.toList, n₀.frames.toList, m.operands.items.toList, n.operands.items.toList,
      m.scopes.saved, n.scopes.saved⟩ p (.call c m.operands.count) (.call d n.operands.count)
      m n := by
  obtain ⟨frames, ⟨floors, held⟩, saved⟩ := Exec.enter_eq_ok entered
  obtain ⟨frames', _, saved'⟩ := Exec.enter_eq_ok entered'
  have same := agree.frames
  rw [frames, frames'] at same
  obtain ⟨body, same⟩ := List.forall₂_cons.1 same
  obtain ⟨call, lower⟩ := List.forall₂_cons.1 same
  have floor : m.operands.floors.headD 0 = m.operands.items.toList.length := by
    rw [held, Stack.length_eq]
    rfl
  have floor' : n.operands.floors.headD 0 = n.operands.items.toList.length := by
    rw [agree.floors, floor, Stack.length_eq, Stack.length_eq]
    exact agree.count.symm
  let A : Ground := ⟨.call c m.operands.count :: m₀.frames.toList, m.operands.floors,
    m.operands.items.toList, m.scopes.saved, 0, floor, none⟩
  let B : Ground := ⟨.call d n.operands.count :: n₀.frames.toList, n.operands.floors,
    n.operands.items.toList, n.scopes.saved, 0, floor', none⟩
  refine ⟨A, B, [.body c.body], [.body d.body], ?_, ?_⟩
  · exact ⟨rfl, rfl, call, lower, nofun, agree.floors, rfl, rfl, rfl, rfl, rfl,
      fun _ => ⟨saved, saved'⟩⟩
  · exact
      { frames := frames
        frames' := frames'
        same := .cons body .nil
        floors := rfl
        floors' := rfl
        layered := ⟨nofun, trivial⟩
        covered := Nat.le_of_eq m.operands.items.length_eq
        items := ⟨[], [], rfl, rfl, .nil⟩
        height := by
          rw [Stack.length_eq, Stack.length_eq]
          exact agree.count
        saved := ⟨[], [], rfl, rfl, .nil, rfl⟩
        entering := rfl
        active := agree.active
        registers := agree.registers
        openQuotes := agree.openQuotes
        openParams := agree.openParams
        origin := agree.origin
        nextId := agree.nextId
        nextId' := agree.nextId'
        codeOnly := nofun }

end AgreeAbove

namespace Standing

/-- Machines on bases of one size agree above it. -/
theorem agreeAbove (standing : Standing S p f g m n) (depth : S.saved'.length = S.saved.length) :
    AgreeAbove p S.items.length m n := by
  obtain ⟨A, B, own, own', footing, alike⟩ := standing
  obtain ⟨u, v, hm, hn, saved, _⟩ := alike.saved
  rw [footing.saved] at hm
  rw [footing.saved'] at hn
  refine
    { registers := alike.registers
      frames := ?_
      floors := ?_
      openQuotes := alike.openQuotes
      openParams := alike.openParams
      origin := alike.origin
      active := alike.active
      above := alike.operands.valuesFrom (Nat.le_of_eq (congrArg List.length footing.items))
      count := alike.operands.count_eq
      depth := ?_
      nextId := alike.nextId
      nextId' := alike.nextId' }
  · rw [alike.frames, alike.frames', footing.frames, footing.frames']
    exact List.rel_append alike.same (.cons footing.top footing.lower)
  · rw [alike.floors, alike.floors', floorsOf_same alike.same, footing.floors]
  · rw [Scopes.depth, Scopes.depth, hm, hn, List.length_append, List.length_append, depth,
      saved.length_eq]

theorem answer {r s : Reply Value} (standing : Standing S p f g m n) (same : r.Same p.rel s) :
    Standing S p f g (m.answer r) (n.answer s) := by
  obtain ⟨A, B, own, own', footing, alike⟩ := standing
  exact ⟨A, B, own, own', footing, alike.answer same⟩

/-- A run that keeps the frame at the base has a counterpart on every machine alike. -/
theorem runsBy {replies replies' : List (Option (Reply Value))} {steps : List Step} {m' : Machine}
    (standing : Standing S p f g m n)
    (same : List.Forall₂ (Option.Rel (Reply.Same p.rel)) replies replies')
    (runs : m.RunsBy (Machine.Stays S.lower.length) replies steps m') :
    ∃ n' q f' g', n.RunsBy (Machine.Stays S.lower.length) replies' steps n' ∧ p ≤ q ∧
      Standing S q f' g' m' n' := by
  induction runs generalizing p f g n replies' with
  | nil =>
    cases same
    exact ⟨n, p, f, g, .nil, le_refl p, standing⟩
  | step stepped _ ih =>
    cases same with
    | cons first rest =>
      cases first
      obtain ⟨n₁, q, f', g', stepped', le, after⟩ := standing.stepsBy stepped
      have grown := rest.imp fun _ _ => optionRel_imp fun _ _ reply => reply.mono le.1
      obtain ⟨n', q', f', g', runs', le', last⟩ := ih after grown
      exact ⟨n', q', f', g', .step stepped' runs', le_trans le le', last⟩
  | answer stepped _ ih =>
    cases same with
    | cons first rest =>
      obtain ⟨n₁, q, f', g', stepped', le, after⟩ := standing.stepsBy stepped
      have grown := rest.imp fun _ _ => optionRel_imp fun _ _ reply => reply.mono le.1
      cases first with
      | some reply =>
        obtain ⟨n', q', f', g', runs', le', last⟩ := ih (after.answer (reply.mono le.1)) grown
        exact ⟨n', q', f', g', .answer stepped' runs', le_trans le le', last⟩

end Standing

/-- Take two machines that have just entered a closure and agree on everything but the operands
under its floor and the contents of the saved scopes. Whatever steps one of them makes while the
frame of the closure stays, the other makes as well with the same results, and they agree again
after them; if they have given out the same identities, they agree outright. -/
theorem enter_noninterference {c d : Closure Value} {m₀ n₀ m n m' : Machine} {p : Pairing}
    {replies replies' : List (Option (Reply Value))} {steps : List Step}
    (entered : Exec.enter c m₀ = .ok () m) (entered' : Exec.enter d n₀ = .ok () n)
    (agree : AgreeAbove p m.operands.floor m n)
    (same : List.Forall₂ (Option.Rel (Reply.Same p.rel)) replies replies')
    (runs : m.RunsBy (Machine.Stays m₀.frames.size) replies steps m') :
    ∃ n' q, n.RunsBy (Machine.Stays m₀.frames.size) replies' steps n' ∧ p ≤ q ∧
      AgreeAbove q m.operands.floor m' n' ∧
      ∀ k, .self k ≤ p → EqualAbove m.operands.floor m' n' := by
  obtain ⟨_, ⟨floors, held⟩, _⟩ := Exec.enter_eq_ok entered
  have floor : m.operands.floor = m.operands.items.toList.length := by
    rw [Operands.floor, held, Stack.length_eq]
    rfl
  rw [← Stack.length_eq] at runs ⊢
  obtain ⟨n', q, f', g', runs', le, after⟩ := (agree.standing entered entered').runsBy same runs
  rw [floor]
  have agree' := after.agreeAbove agree.depth
  exact ⟨n', q, runs', le, agree', fun k given => agree'.equalAbove (le_trans given le)⟩

/-- A machine with one operand, in a scope of its own. -/
def Machine.calling (v : Value) : Machine :=
  { registry := .standard
    operands := Operands.empty.push v
    scopes := ⟨⟨[("x", v)]⟩, []⟩
    nextId := 1 }

/-- Callers that hold a number and a text. -/
theorem enter_noninterference_callers :
    ∃ c m n m' n', Exec.enter c (.calling (.int 5)) = .ok () m ∧
      Exec.enter c (.calling (.str "a")) = .ok () n ∧
      m.RunsBy (Machine.Stays 0) [none, none] [.checkpoint, .checkpoint] m' ∧
      n.RunsBy (Machine.Stays 0) [none, none] [.checkpoint, .checkpoint] n' ∧
      m'.operands.toList = [.int 5, .int 1, .int 2] ∧ EqualAbove 1 m' n' := by
  let c : Closure Value := ⟨0, some "f", [.int 1, .int 2], none, .empty⟩
  let inside (v : Value) : Machine :=
    { Machine.calling v with
      operands := (Operands.empty.push v).forbid
      scopes := (Machine.calling v).scopes.enter c.activation
      frames := (Stack.empty.push (.call c 1)).push (.body c.body) }
  have entered : Exec.enter c (.calling (.int 5)) = .ok () (inside (.int 5)) := rfl
  have entered' : Exec.enter c (.calling (.str "a")) = .ok () (inside (.str "a")) := rfl
  have frames (frames : List Frame) : List.Forall₂ (Frame.Same Eq) frames frames :=
    List.forall₂_same.2 fun f _ => f.same_self fun _ => rfl
  have agree : AgreeAbove (.self 1) 1 (inside (.int 5)) (inside (.str "a")) :=
    ⟨Machine.registers_same _ fun _ => rfl, frames _, rfl, rfl, rfl, rfl,
      Bindings.same_self (fun _ => rfl) _, .nil, rfl, rfl, rfl, rfl⟩
  have runs : (inside (.int 5)).RunsBy (Machine.Stays 0) [none, none]
      [.checkpoint, .checkpoint] _ :=
    .step (.more rfl ⟨_, _, rfl, rfl, .same _⟩ (.last rfl ⟨_, _, rfl, rfl, .same _⟩))
      (.step (.more rfl ⟨_, _, rfl, rfl, .same _⟩ (.last rfl ⟨_, _, rfl, rfl, .same _⟩)) .nil)
  obtain ⟨n', _, runs', _, _, equal⟩ := enter_noninterference entered entered' agree
    (.cons .none (.cons .none .nil)) runs
  exact ⟨c, _, _, _, n', entered, entered', runs, runs', rfl, equal 1 (le_refl _)⟩

end Catena
