import Catena.Proofs.Ground

set_option autoImplicit false

/-!
Machines that are alike above their grounds, and actions that run in parallel on such machines: they
end in the same way, with related answers, and leave the machines alike. An action that runs in
parallel with itself reads and changes nothing of the ground.
-/

namespace Catena

/-- What lies below the work at hand. The operands are those under the topmost floor. -/
structure Ground where
  frames : List Frame
  floors : List Nat
  items : List Value
  saved : List Scope
  /-- Scopes saved by calls whose frames are still to come. -/
  entering : Nat := 0
  floor_eq : floors.headD 0 = items.length
  /-- Set if only code runs above the ground, so that nothing is collected there: the builtins. -/
  codeOnly : Option Registry := none

/-- The ground of a machine that has saved scopes for calls to come. -/
def Ground.awaiting (A : Ground) (calls : Nat) : Ground :=
  { A with entering := A.entering + calls }

/-- What running code leaves as it is. -/
structure Registers where
  registry : Registry
  maxFrames : Nat
  control : Control
  pending : Option (Pending Value)
  checkpoints : Nat

def Machine.registers (m : Machine) : Registers :=
  ⟨m.registry, m.maxFrames, m.control, m.pending, m.checkpoints⟩

structure Registers.Same (p : Nat → Nat → Prop) (r s : Registers) : Prop where
  registry : Registry.Same p r.registry s.registry
  maxFrames : s.maxFrames = r.maxFrames
  control : r.control.Same p s.control
  pending : r.control = .suspend → Option.Rel (Pending.Same p) r.pending s.pending

/-- Two machines with the frames `own` and `own'` above their grounds. -/
structure Alike (A B : Ground) (p : Pairing) (own own' : List Frame) (m n : Machine) : Prop where
  frames : m.frames.toList = own ++ A.frames
  frames' : n.frames.toList = own' ++ B.frames
  same : List.Forall₂ (Frame.Same p.rel) own own'
  floors : m.operands.floors = floorsOf own ++ A.floors
  floors' : n.operands.floors = floorsOf own' ++ B.floors
  layered : Layered A.items.length own
  covered : floorAbove A.items.length own ≤ m.operands.count
  items : ∃ u v, m.operands.items.toList = u ++ A.items ∧ n.operands.items.toList = v ++ B.items ∧
    List.Forall₂ (Value.Same p.rel) u v
  height : B.items.length = A.items.length
  saved : ∃ u v, m.scopes.saved = u ++ A.saved ∧ n.scopes.saved = v ++ B.saved ∧
    List.Forall₂ (Bindings.Same p.rel) u v ∧ u.length = callsIn own + A.entering
  entering : B.entering = A.entering
  active : m.scopes.active.Same p.rel n.scopes.active
  registers : m.registers.Same p.rel n.registers
  openQuotes : n.openQuotes = m.openQuotes
  openParams : n.openParams = m.openParams
  origin : n.origin = m.origin
  nextId : m.nextId = p.left
  nextId' : n.nextId = p.right
  codeOnly : ∀ r ∈ B.codeOnly, n.registry = r ∧ m.openQuotes = 0 ∧ m.openParams = 0 ∧
    ∀ f ∈ own, f.isProgram = false

theorem Ground.floor_append (A : Ground) {own : List Frame} {s : Operands}
    (floors : s.floors = floorsOf own ++ A.floors) : s.floor = floorAbove A.items.length own := by
  rw [Operands.floor, floorAbove, floors, ← A.floor_eq]
  cases floorsOf own <;> rfl

theorem Registers.Same.mono {p q : Nat → Nat → Prop} (h : ∀ i j, p i j → q i j) {r s : Registers}
    (same : r.Same p s) : r.Same q s where
  registry := same.registry.mono h
  maxFrames := same.maxFrames
  control := same.control.mono h
  pending waits := optionRel_imp (fun _ _ ab => ab.mono h) (same.pending waits)

theorem Machine.registers_same (m : Machine) {p : Nat → Nat → Prop} (h : ∀ i, p i i) :
    m.registers.Same p m.registers where
  registry := Registry.same_self h m.registry
  maxFrames := rfl
  control := m.control.same_self h
  pending _ := by
    cases m.registers.pending with
    | none => exact .none
    | some a => exact .some (a.same_self h)

namespace Alike

variable {A B : Ground} {p : Pairing} {own own' : List Frame} {m n : Machine}

section

variable (alike : Alike A B p own own' m n)
include alike

theorem operands : m.operands.Alike p.rel A.items B.items n.operands where
  items := alike.items
  height := alike.height
  floor := by
    rw [A.floor_append alike.floors, B.floor_append alike.floors', alike.height, floorAbove,
      floorAbove, floorsOf_same alike.same]
  guarded := by
    rw [A.floor_append alike.floors]
    exact alike.layered.base_le
  covered := by
    rw [A.floor_append alike.floors]
    exact alike.covered

theorem setOperands {s t : Operands} (same : s.Alike p.rel A.items B.items t)
    (left : s.floors = m.operands.floors) (right : t.floors = n.operands.floors) :
    Alike A B p own own' { m with operands := s } { n with operands := t } :=
  { alike with
    floors := left.trans alike.floors
    floors' := right.trans alike.floors'
    items := same.items
    covered := by
      rw [← A.floor_append (left.trans alike.floors)]
      exact same.covered }

theorem setActive {s t : Scope} (same : s.Same p.rel t) :
    Alike A B p own own' { m with scopes := { m.scopes with active := s } }
      { n with scopes := { n.scopes with active := t } } :=
  { alike with active := same }

theorem enterScope {s t : Scope} (same : s.Same p.rel t) :
    Alike (A.awaiting 1) (B.awaiting 1) p own own' { m with scopes := m.scopes.enter s }
      { n with scopes := n.scopes.enter t } := by
  obtain ⟨u, v, hm, hn, saved, depth⟩ := alike.saved
  refine
    { alike with
      active := same
      entering := congrArg (· + 1) alike.entering
      saved := ⟨m.scopes.active :: u, n.scopes.active :: v, ?_, ?_, .cons alike.active saved, ?_⟩ }
  · exact congrArg (m.scopes.active :: ·) hm
  · exact congrArg (n.scopes.active :: ·) hn
  · rw [List.length_cons, depth, Ground.awaiting]
    exact Nat.add_assoc ..

end

theorem leaveScope (alike : Alike (A.awaiting 1) (B.awaiting 1) p own own' m n) :
    Alike A B p own own' { m with scopes := m.scopes.leave }
      { n with scopes := n.scopes.leave } := by
  obtain ⟨u, v, hm, hn, saved, depth⟩ := alike.saved
  cases saved with
  | nil => cases depth
  | @cons x y u v xy saved =>
    rw [Scopes.leave, Scopes.leave, hm, hn]
    exact
      { alike with
        active := xy
        entering := Nat.succ.inj alike.entering
        saved := ⟨u, v, rfl, rfl, saved, Nat.succ.inj depth⟩ }

section

variable (alike : Alike A B p own own' m n)
include alike

/-- Both machines give out an identity. -/
theorem fresh :
    Alike A B p.next own own' { m with nextId := m.nextId + 1 }
      { n with nextId := n.nextId + 1 } := by
  have keeps := p.le_next.1
  obtain ⟨u, v, hm, hn, items⟩ := alike.items
  obtain ⟨u', v', hm', hn', saved, depth⟩ := alike.saved
  exact
    { alike with
      same := alike.same.imp fun _ _ same => same.mono keeps
      items := ⟨u, v, hm, hn, items.imp fun _ _ same => same.mono keeps⟩
      saved := ⟨u', v', hm', hn', saved.imp fun _ _ same => same.mono keeps, depth⟩
      active := alike.active.mono keeps
      registers := alike.registers.mono keeps
      nextId := congrArg (· + 1) alike.nextId
      nextId' := congrArg (· + 1) alike.nextId' }

/-- Other frames that hold the same floors and scopes. -/
theorem setFrames {above above' : List Frame} {s t : Stack Frame}
    (left : s.toList = above ++ A.frames) (right : t.toList = above' ++ B.frames)
    (same : List.Forall₂ (Frame.Same p.rel) above above') (floors : floorsOf above = floorsOf own)
    (calls : callsIn above = callsIn own) (layered : Layered A.items.length above)
    (code : ∀ r ∈ B.codeOnly, ∀ f ∈ above, f.isProgram = false) :
    Alike A B p above above' { m with frames := s } { n with frames := t } :=
  { alike with
    codeOnly := fun r only =>
      have ⟨registry, quotes, params, _⟩ := alike.codeOnly r only
      ⟨registry, quotes, params, code r only⟩
    frames := left
    frames' := right
    same := same
    floors := by rw [floors]; exact alike.floors
    floors' := by rw [floorsOf_same same, floors, ← floorsOf_same alike.same]; exact alike.floors'
    layered := layered
    covered := by
      have covered := alike.covered
      rw [floorAbove] at covered ⊢
      rwa [floors]
    saved := by rw [calls]; exact alike.saved }

theorem isBuiltin (name : String) : n.isBuiltin name = m.isBuiltin name := by
  have found : Option.Rel (Builtin.Same p.rel) (Bindings.get? m.registry name)
      (Bindings.get? n.registry name) := alike.registers.registry.get? name
  simp only [Machine.isBuiltin, Bindings.contains]
  generalize Bindings.get? m.registry name = x at found
  generalize Bindings.get? n.registry name = y at found
  cases found <;> rfl

theorem maxFrames : n.maxFrames = m.maxFrames :=
  alike.registers.maxFrames

/-- A frame that holds neither a floor nor a scope. -/
theorem pushFrame {f g : Frame} (fg : f.Same p.rel g) (free : f.floor? = none)
    (marked : ∀ height ∈ f.mark?, floorAbove A.items.length own ≤ height)
    (code : ∀ r ∈ B.codeOnly, f.isProgram = false) :
    Alike A B p (f :: own) (g :: own') { m with frames := m.frames.push f }
      { n with frames := n.frames.push g } := by
  have notCall : f.isCall = false := by
    cases f <;> first | rfl | cases free
  refine alike.setFrames ?_ ?_ (.cons fg alike.same) ?_ ?_ ⟨marked, alike.layered⟩ ?_
  · rw [Stack.toList_push, alike.frames]
    rfl
  · rw [Stack.toList_push, alike.frames']
    rfl
  · rw [floorsOf_cons, free]
    rfl
  · rw [callsIn_cons, notCall]
    rfl
  · intro r only
    exact List.forall_mem_cons.2 ⟨code r only, (alike.codeOnly r only).2.2.2⟩

end

/-- A floor under everything on the stack, with the frame that holds it. -/
theorem hold {f g : Frame} (alike : Alike (A.awaiting (callsIn [f])) (B.awaiting (callsIn [f])) p
    own own' m n) (fg : f.Same p.rel g) (floor : f.floor? = some m.operands.count) :
    Alike A B p (f :: own) (g :: own')
      { m with frames := m.frames.push f, operands := m.operands.forbid }
      { n with frames := n.frames.push g, operands := n.operands.forbid } := by
  have count := alike.operands.count_eq
  have mark := Frame.mark?_of_floor? floor
  obtain ⟨u, v, hm, hn, saved, depth⟩ := alike.saved
  refine
    { alike with
      frames := ?_
      frames' := ?_
      same := .cons fg alike.same
      floors := ?_
      floors' := ?_
      layered := ⟨fun height held => ?_, alike.layered⟩
      covered := ?_
      saved := ⟨u, v, hm, hn, saved, ?_⟩
      entering := ?_
      codeOnly := ?_ }
  · rw [Stack.toList_push, alike.frames]
    rfl
  · rw [Stack.toList_push, alike.frames']
    rfl
  · rw [floorsOf_cons, floor, Operands.forbid, alike.floors]
    rfl
  · rw [floorsOf_cons, fg.floor?, floor, Operands.forbid, alike.floors', count]
    rfl
  · rw [mark] at held
    cases held
    exact alike.covered
  · rw [floorAbove_cons, floor]
    exact Nat.le_refl _
  · rw [depth, callsIn_cons, callsIn_cons, Ground.awaiting]
    simp only [callsIn_nil]
    omega
  · have entering := alike.entering
    simp only [Ground.awaiting] at entering
    omega
  · intro r only
    obtain ⟨registry, quotes, params, code⟩ := alike.codeOnly r only
    have notProgram : f.isProgram = false := by
      cases f <;> first | rfl | cases floor
    exact ⟨registry, quotes, params, List.forall_mem_cons.2 ⟨notProgram, code⟩⟩

/-- Giving up the topmost frame and what it had set up. -/
theorem release {f g : Frame} (alike : Alike A B p (f :: own) (g :: own') m n)
    {s t : Stack Frame} (left : s.toList = own ++ A.frames) (right : t.toList = own' ++ B.frames) :
    Alike A B p own own' { m.release f with frames := s } { n.release g with frames := t } := by
  obtain ⟨fg, same⟩ := List.forall₂_cons.1 alike.same
  have floors := alike.floors
  have floors' := alike.floors'
  have covered := Nat.le_trans alike.layered.floorAbove_le alike.covered
  rw [floorsOf_cons] at floors floors'
  have saved := alike.saved
  rw [callsIn_cons] at saved
  have codeOnly : ∀ r ∈ B.codeOnly, n.registry = r ∧ m.openQuotes = 0 ∧ m.openParams = 0 ∧
      ∀ f ∈ own, f.isProgram = false := fun r only =>
    have ⟨registry, quotes, params, code⟩ := alike.codeOnly r only
    ⟨registry, quotes, params, (List.forall_mem_cons.1 code).2⟩
  cases fg with
  | @call c d floor cd =>
    obtain ⟨u, v, hm, hn, scopes, depth⟩ := saved
    cases scopes with
    | nil =>
      simp only [Frame.isCall, ↓reduceIte, List.length_nil] at depth
      omega
    | @cons x y u v xy scopes =>
      refine
        { alike with
          frames := left, frames' := right, same := same, layered := alike.layered.2
          covered := covered, codeOnly := codeOnly
          floors := by simp [Machine.release, Operands.allow, floors, Frame.floor?]
          floors' := by simp [Machine.release, Operands.allow, floors', Frame.floor?]
          saved := ⟨u, v, ?_, ?_, scopes, ?_⟩
          active := ?_ }
      · simp [Machine.release, Scopes.leave, hm]
      · simp [Machine.release, Scopes.leave, hn]
      · simp only [Frame.isCall, ↓reduceIte, List.length_cons] at depth
        omega
      · simpa [Machine.release, Scopes.leave, hm, hn] using xy
  | @update a b field s t floor ab st =>
    exact
      { alike with
        frames := left, frames' := right, same := same, layered := alike.layered.2
        covered := covered, codeOnly := codeOnly
        floors := by simp [Machine.release, Operands.allow, floors, Frame.floor?]
        floors' := by simp [Machine.release, Operands.allow, floors', Frame.floor?]
        saved := saved }
  | _ =>
    exact
      { alike with
        frames := left, frames' := right, same := same, layered := alike.layered.2
        covered := covered, floors := floors, floors' := floors', saved := saved
        codeOnly := codeOnly }

end Alike

end Catena
