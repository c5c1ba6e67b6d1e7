import Catena.Proofs.Abandoned
import Catena.Proofs.Grounding

set_option autoImplicit false

/-!
Copies of a running machine. A copy has the operands and the scopes of the original but no frames.
The floors and saved scopes of the activations that were running come along, and as no frame of the
copy holds them, nothing that runs on the copy gives them up: it stands on them as on a ground. So a
program that is done on a copy has left it without activations exactly if the original had none when
it was copied.
-/

namespace Catena

/-! ### Grounds without frames -/

section

variable {A : Ground} {p : Pairing} {own own' : List Frame} {m n : Machine}

/-- Below such a ground there is nothing that an error could escape to. -/
theorem StepAlike.alike {x y : Step × Machine} (step : StepAlike A A p x y)
    (bare : A.frames = []) : ∃ q own own', Alike A A q own own' x.2 y.2 := by
  cases step with
  | both _ alike => exact ⟨_, _, _, alike⟩
  | @escapes q own own' e m n _ alike passed passed' =>
    have frames : m.frames.toList = own := by simpa [bare] using alike.frames
    have frames' : n.frames.toList = own' := by simpa [bare] using alike.frames'
    subst frames frames'
    rw [Machine.raiseError_of_passed passed, Machine.raiseError_of_passed passed']
    exact ⟨_, _, _, alike.abort bare⟩

theorem TurnAlike.alike {x y : Option Step × Machine} (turn : TurnAlike A A p x y)
    (bare : A.frames = []) : ∃ q own own', Alike A A q own own' x.2 y.2 := by
  cases turn with
  | goesOn _ alike => exact ⟨_, _, _, alike⟩
  | ends step => exact step.alike bare

end

/-- The frames of the machine stand on a ground that has none. -/
structure Machine.Upon (A : Ground) (m : Machine) : Prop where
  bare : A.frames = []
  alike : Alike A A (.self m.nextId) m.frames.toList m.frames.toList m m

/-- What is alike to itself is so with every identity kept. -/
theorem Alike.upon {A : Ground} {p : Pairing} {own own' : List Frame} {m : Machine}
    (alike : Alike A A p own own' m m) (bare : A.frames = []) : m.Upon A := by
  have frames : m.frames.toList = own := by simpa [bare] using alike.frames
  subst frames
  obtain ⟨u, _, items, _, _⟩ := alike.items
  obtain ⟨w, _, saved, _, _, depth⟩ := alike.saved
  exact ⟨bare, { alike with
    frames' := alike.frames
    same := List.forall₂_same.2 fun f _ => f.same_self fun _ => rfl
    floors' := alike.floors
    items := ⟨u, u, items, items, List.forall₂_same.2 fun v _ => v.same_self fun _ => rfl⟩
    saved := ⟨w, w, saved, saved, List.forall₂_same.2 fun s _ => s.same_self fun _ => rfl, depth⟩
    active := m.scopes.active.same_self fun _ => rfl
    registers := m.registers_same fun _ => rfl
    nextId := rfl
    nextId' := rfl }⟩

namespace Machine.Upon

variable {A : Ground} {m : Machine}

theorem raiseError (upon : m.Upon A) (e : LocatedError) : (m.raiseError e).2.Upon A := by
  obtain ⟨q, own, own', after⟩ := (upon.alike.raiseError e).alike upon.bare
  exact after.upon upon.bare

theorem interrupt (upon : m.Upon A) (signal : Signal) : (m.interrupt signal).2.Upon A := by
  have same : signal.Same (Pairing.self m.nextId).rel signal := signal.same_self fun _ => rfl
  obtain ⟨q, own, own', after⟩ := (upon.alike.interrupt same).alike upon.bare
  exact after.upon upon.bare

theorem turn (upon : m.Upon A) : m.turn.2.Upon A := by
  have alike := upon.alike
  cases frames : m.frames.toList with
  | nil =>
    have top : m.frames.pop? = none := Stack.pop?_eq_none_iff.2 frames
    rw [Machine.turn, top]
    simp only [ending, finish]
    split
    · exact upon.raiseError _
    · exact upon
  | cons f below =>
    rw [frames] at alike
    rcases alike.turn with turned | ⟨depths, _⟩
    · obtain ⟨q, own, own', after⟩ := turned.alike upon.bare
      exact after.upon upon.bare
    · exact absurd rfl depths

theorem afterSignal {x : EStateM.Result Signal Machine Unit} {p : Pairing} {r : Registers}
    (bare : A.frames = []) (ends : EndAlike A A p (fun _ (_ _ : Unit) => True) r r x x) :
    (Machine.afterSignal x).2.Upon A := by
  rcases ends.afterSignal with turned | ⟨depths, _⟩
  · obtain ⟨q, own, own', after⟩ := turned.alike bare
    exact after.upon bare
  · exact absurd rfl depths

theorem leaveLoop (upon : m.Upon A) : (Machine.afterSignal (Exec.leaveLoop m)).2.Upon A := by
  by_cases edge : ∀ f ∈ m.frames.toList, f.loopEdge? = none
  · have released := upon.alike.releaseOwn
    rw [upon.bare] at released
    rw [Exec.leaveLoop_of_passed edge]
    exact (released.upon upon.bare).interrupt (.error .breakOutsideLoop)
  · exact afterSignal upon.bare (upon.alike.leaveLoop edge)

theorem replaceCall (upon : m.Upon A) (target : Closure Value) :
    (Machine.afterSignal (Exec.replaceCall target m)).2.Upon A := by
  by_cases call : ∀ f ∈ m.frames.toList, f.callFloor? = none
  · rw [Exec.replaceCall_of_passed call]
    exact upon.interrupt (.error .tailCallOutsideFunction)
  · exact afterSignal upon.bare (upon.alike.replaceCall (target.same_self fun _ => rfl) call)

theorem heed (upon : m.Upon A) : m.heed.2.Upon A := by
  have calm : ({ m with control := .none } : Machine).Upon A :=
    ⟨upon.bare, upon.alike.setControl .none fun asleep => by cases asleep⟩
  unfold Machine.heed
  cases m.control with
  | none => exact upon
  | suspend => exact upon
  | throw e => exact calm.raiseError e
  | «break» => exact calm.leaveLoop
  | tailCall target => exact calm.replaceCall target

theorem answer (upon : m.Upon A) (reply : Reply Value) : (m.answer reply).Upon A := by
  have same : reply.Same (Pairing.self m.nextId).rel reply := reply.same_self fun _ => rfl
  exact (upon.alike.answer same).upon upon.bare

/-- Once no frame is left, the floors and the saved scopes are those of the ground. -/
theorem of_empty (upon : m.Upon A) (empty : m.frames.toList = []) (settled : A.entering = 0) :
    m.operands.floors = A.floors ∧ m.scopes.saved = A.saved := by
  have floors := upon.alike.floors
  obtain ⟨u, _, saved, _, _, depth⟩ := upon.alike.saved
  rw [empty] at floors depth
  rw [settled] at depth
  rw [List.eq_nil_of_length_eq_zero depth] at saved
  exact ⟨floors, saved⟩

end Machine.Upon

/-! ### The ground of a copy -/

namespace Machine

theorem length_below_floor {m : Machine} (covered : m.operands.floor ≤ m.operands.count) :
    (m.operands.items.toList.drop m.operands.accessible).length = m.operands.floor := by
  have count : m.operands.items.toList.length = m.operands.count := m.operands.items.length_eq
  rw [List.length_drop, count, Operands.accessible]
  exact Nat.sub_sub_self covered

/-- What is out of reach for a machine without frames: the operands under its floors and the scopes
that it has saved. -/
def ground (m : Machine) (covered : m.operands.floor ≤ m.operands.count) : Ground where
  frames := []
  floors := m.operands.floors
  items := m.operands.items.toList.drop m.operands.accessible
  saved := m.scopes.saved
  floor_eq := (length_below_floor covered).symm

variable {m m' : Machine}

theorem upon_load_copy (covered : m.operands.floor ≤ m.operands.count) (tokens : List Token) :
    (m.copy.load tokens).Upon (m.ground covered) where
  bare := rfl
  alike := {
    frames := rfl
    frames' := rfl
    same := List.forall₂_same.2 fun f _ => f.same_self fun _ => rfl
    floors := rfl
    floors' := rfl
    layered := ⟨nofun, trivial⟩
    covered := by
      change (m.ground covered).items.length ≤ m.operands.count
      rw [ground, length_below_floor covered]
      exact covered
    items := by
      have split : m.operands.items.toList = m.operands.items.toList.take m.operands.accessible ++
          (m.ground covered).items := (List.take_append_drop _ _).symm
      exact ⟨_, _, split, split, List.forall₂_same.2 fun v _ => v.same_self fun _ => rfl⟩
    height := rfl
    saved := ⟨[], [], rfl, rfl, .nil, rfl⟩
    entering := rfl
    active := m.scopes.active.same_self fun _ => rfl
    registers := registers_same _ fun _ => rfl
    openQuotes := rfl
    openParams := rfl
    origin := rfl
    nextId := rfl
    nextId' := rfl
    codeOnly := nofun }

/-- A program that is done on a copy has left floors and saved scopes as they were. -/
theorem held_of_copy (covered : m.operands.floor ≤ m.operands.count) {tokens : List Token}
    {n : Machine} (runs : (m.copy.load tokens).Course n) (done : n.step = (.done, m')) :
    m'.operands.floors = m.operands.floors ∧ m'.scopes.saved = m.scopes.saved := by
  have standing := runs.preserves (fun _ => Upon.heed) (fun _ => Upon.turn)
    (fun _ reply upon => upon.answer reply) (upon_load_copy covered tokens)
  have after := step_preserves (fun _ => Upon.heed) (fun _ => Upon.turn) standing
  rw [done] at after
  exact after.of_empty (done_of_step done) rfl

end Machine

theorem Aligned.floor_le {m : Machine} (aligned : Aligned m) :
    m.operands.floor ≤ m.operands.count := by
  have floor : m.operands.floor = floorAbove 0 m.frames.toList := by
    rw [Operands.floor, aligned.floors, floorAbove]
  rw [floor]
  exact aligned.covered

/-- Copies are taken of a run at any time, also while it waits. A program that is done on a copy has
left there the floors of all activations that the original was in and the scopes saved by its
closures, so the copy is free of activations if and only if the original was in none. -/
theorem copy_free_iff {m₀ m₁ k m n m' : Machine} {tokens : List Token} (idle : m₀.Idle)
    (loaded : m₀.Loaded m₁) (course : m₁.Course k) (taken : m = k ∨ k.step = (.suspended, m))
    (runs : (m.copy.load tokens).Course n) (done : n.step = (.done, m')) :
    m'.operands.floors = floorsOf m.frames.toList ∧
    m'.scopes.saved = m.scopes.saved ∧
    m'.scopes.saved.length = callsIn m.frames.toList ∧
    (m'.operands.floors = [] ∧ m'.operands.accessible = m'.operands.count ∧ m'.scopes.saved = [] ↔
      ∀ f ∈ m.frames.toList, f.floor? = none) := by
  have aligned : Aligned m := by
    obtain ⟨before, waiting⟩ := course.sound (loaded.sound idle)
    rcases taken with rfl | suspended
    · exact before
    · have kept := before.step waiting
      rw [suspended] at kept
      exact kept.aligned
  obtain ⟨floors, saved⟩ := Machine.held_of_copy aligned.floor_le runs done
  rw [aligned.floors] at floors
  have depth : m'.scopes.saved.length = callsIn m.frames.toList := by rw [saved, aligned.saved]
  refine ⟨floors, saved, depth, ?_⟩
  rw [← floorsOf_eq_nil_iff]
  constructor
  · rintro ⟨none, _, _⟩
    rw [← floors, none]
  · intro none
    rw [none] at floors
    refine ⟨floors, ?_, ?_⟩
    · rw [Operands.accessible, Operands.floor, floors]
      rfl
    · rw [callsIn_of_floors (floorsOf_eq_nil_iff.1 none)] at depth
      exact List.eq_nil_of_length_eq_zero depth

/-- A copy that is taken between two tokens is free of activations after another program, one that
is taken inside the closure is not. -/
theorem copy_free_iff_call :
    ∃ m n m' n', (Machine.knowing.load [⟨.int 5, .none⟩, ⟨.name "f", .none⟩]).Course m ∧
      m.step = (.checkpoint, n) ∧
      (m.copy.load [⟨.int 2, .none⟩]).step.2.step = (.done, m') ∧
      (n.copy.load [⟨.int 2, .none⟩]).step.2.step = (.done, n') ∧
      (m'.operands.floors = [] ∧ m'.operands.accessible = m'.operands.count ∧
        m'.scopes.saved = []) ∧
      n'.operands.floors = [1] ∧ n'.operands.accessible = 1 ∧ n'.operands.count = 2 ∧
      n'.scopes.saved.length = 1 := by
  have idle : Machine.knowing.Idle := ⟨rfl, rfl, rfl, rfl, rfl, rfl⟩
  let k := Machine.knowing.load [⟨.int 5, .none⟩, ⟨.name "f", .none⟩]
  have pushed : k.step = (.checkpoint, k.turn.2) := Machine.step_of_turn rfl rfl
  have called : k.turn.2.step = (.checkpoint, k.turn.2.turn.2) := Machine.step_of_turn rfl rfl
  have between : k.Course k.turn.2 := .step .start pushed (by decide)
  have inside : k.Course k.turn.2.turn.2 := .step between called (by decide)
  -- Whatever is copied, the program pushes its number and is done.
  let left (m : Machine) : Machine :=
    { m.copy with operands := m.operands.push (.int 2), origin := .none, checkpoints := 1 }
  have pushes (m : Machine) :
      (m.copy.load [⟨.int 2, .none⟩]).step = (.checkpoint, (left m).load []) :=
    Machine.step_of_turn rfl rfl
  have ends (m : Machine) : (m.copy.load [⟨.int 2, .none⟩]).step.2.step = (.done, left m) := by
    rw [pushes]
    exact (left m).step_load_nil_done rfl
  have runs (m : Machine) : (m.copy.load [⟨.int 2, .none⟩]).Course ((left m).load []) :=
    .step .start (pushes m) (by decide)
  have done (m : Machine) : ((left m).load []).step = (.done, left m) :=
    (left m).step_load_nil_done rfl
  have free := copy_free_iff idle (.program _) between (.inl rfl) (runs _) (done _)
  have held := copy_free_iff idle (.program _) inside (.inl rfl) (runs _) (done _)
  have outside : ∀ f ∈ k.turn.2.frames.toList, f.floor? = none := List.forall_mem_singleton.2 rfl
  exact ⟨_, _, _, _, between, called, ends _, ends _, free.2.2.2.2 outside, held.1, rfl, rfl,
    held.2.2.1⟩

/-- On a copy that is taken inside a closure, the empty program is done at once, with an operand out
of reach and a scope under the active one. -/
theorem exists_copy_occupied :
    ∃ m m', (Machine.knowing.load [⟨.int 5, .none⟩, ⟨.name "f", .none⟩]).Course m ∧
      (m.copy.load []).step = (.done, m') ∧ m'.operands.floors = [1] ∧
      m'.operands.accessible = 0 ∧ m'.operands.count = 1 ∧
      m'.scopes.saved = [Machine.knowing.scopes.active] := by
  let k := Machine.knowing.load [⟨.int 5, .none⟩, ⟨.name "f", .none⟩]
  have pushed : k.step = (.checkpoint, k.turn.2) := Machine.step_of_turn rfl rfl
  have called : k.turn.2.step = (.checkpoint, k.turn.2.turn.2) := Machine.step_of_turn rfl rfl
  have between : k.Course k.turn.2 := .step .start pushed (by decide)
  have inside : k.Course k.turn.2.turn.2 := .step between called (by decide)
  exact ⟨_, _, inside, k.turn.2.turn.2.copy.step_load_nil_done rfl, rfl, rfl, rfl, rfl⟩

end Catena
