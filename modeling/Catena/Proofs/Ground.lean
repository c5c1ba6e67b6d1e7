import Catena.Proofs.Pairing

set_option autoImplicit false

/-!
Machines that stand on a ground. The ground is what lies below the work at hand: the lower frames,
their floors, the operands under the topmost of these floors and the scopes saved so far. Two
machines are alike above their grounds when everything else is the same up to identities; what the
grounds hold plays no part. The relation also says that the frames above the ground, the floors and
the saved scopes belong together, which is what keeps running code from reaching below.
-/

namespace Catena

/-! ### Floors of frames -/

/-- The floor that a frame has set. -/
def Frame.floor? : Frame → Option Nat
  | .call _ floor => some floor
  | .update _ _ _ floor => some floor
  | _ => none

/-- The height of the stack that a frame refers to. -/
def Frame.mark? : Frame → Option Nat
  | .attempt height => some height
  | frame => frame.floor?

def Frame.isProgram : Frame → Bool
  | .program _ => true
  | _ => false

def Frame.isCall : Frame → Bool
  | .call .. => true
  | _ => false

def floorsOf (frames : List Frame) : List Nat := frames.filterMap Frame.floor?

def callsIn (frames : List Frame) : Nat := frames.countP Frame.isCall

/-- The topmost floor of frames that stand on height `base`. -/
def floorAbove (base : Nat) (frames : List Frame) : Nat := (floorsOf frames).headD base

/-- No frame refers to a height under the floors below it. -/
def Layered (base : Nat) : List Frame → Prop
  | [] => True
  | frame :: below => (∀ height ∈ frame.mark?, floorAbove base below ≤ height) ∧ Layered base below

@[simp] theorem floorsOf_nil : floorsOf [] = [] := rfl

@[simp] theorem floorsOf_append (above below : List Frame) :
    floorsOf (above ++ below) = floorsOf above ++ floorsOf below :=
  List.filterMap_append

theorem floorsOf_cons (frame : Frame) (below : List Frame) :
    floorsOf (frame :: below) = frame.floor?.toList ++ floorsOf below := by
  cases floor : frame.floor? <;> simp [floorsOf, floor]

@[simp] theorem callsIn_nil : callsIn [] = 0 := rfl

@[simp] theorem callsIn_cons (frame : Frame) (below : List Frame) :
    callsIn (frame :: below) = callsIn below + if frame.isCall then 1 else 0 :=
  List.countP_cons ..

@[simp] theorem callsIn_append (above below : List Frame) :
    callsIn (above ++ below) = callsIn above + callsIn below :=
  List.countP_append ..

@[simp] theorem floorAbove_nil (base : Nat) : floorAbove base [] = base := rfl

theorem floorAbove_cons (base : Nat) (frame : Frame) (below : List Frame) :
    floorAbove base (frame :: below) = frame.floor?.getD (floorAbove base below) := by
  unfold floorAbove
  rw [floorsOf_cons]
  cases frame.floor? <;> rfl

theorem Frame.mark?_of_floor? {frame : Frame} {floor : Nat} (h : frame.floor? = some floor) :
    frame.mark? = some floor := by
  cases frame <;> first | exact h | cases h

theorem Layered.floorAbove_le {base : Nat} {frame : Frame} {below : List Frame}
    (layered : Layered base (frame :: below)) :
    floorAbove base below ≤ floorAbove base (frame :: below) := by
  rw [floorAbove_cons]
  cases holds : frame.floor? with
  | none => exact Nat.le_refl _
  | some floor => exact layered.1 floor (Frame.mark?_of_floor? holds)

theorem Layered.of_append {base : Nat} {above below : List Frame}
    (layered : Layered base (above ++ below)) :
    Layered base below ∧ floorAbove base below ≤ floorAbove base (above ++ below) := by
  induction above with
  | nil => exact ⟨layered, Nat.le_refl _⟩
  | cons frame above ih =>
    obtain ⟨lower, le⟩ := ih layered.2
    exact ⟨lower, Nat.le_trans le layered.floorAbove_le⟩

theorem Layered.base_le {base : Nat} {frames : List Frame} (layered : Layered base frames) :
    base ≤ floorAbove base frames := by
  rw [← List.append_nil frames] at layered ⊢
  exact layered.of_append.2

section

variable {p : Nat → Nat → Prop} {f g : Frame} {own own' : List Frame}

theorem Frame.Same.floor? (same : f.Same p g) : g.floor? = f.floor? := by
  cases same <;> rfl

theorem floorsOf_same (same : List.Forall₂ (Frame.Same p) own own') :
    floorsOf own' = floorsOf own := by
  induction same with
  | nil => rfl
  | cons fg _ ih => rw [floorsOf_cons, floorsOf_cons, fg.floor?, ih]

end

/-! ### Operands above a ground -/

/-- Operands that are the same above `a` and `b`, which the floor protects. -/
structure Operands.Alike (p : Nat → Nat → Prop) (a b : List Value) (s t : Operands) : Prop where
  items : ∃ u v, s.items.toList = u ++ a ∧ t.items.toList = v ++ b ∧
    List.Forall₂ (Value.Same p) u v
  height : b.length = a.length
  floor : t.floor = s.floor
  guarded : a.length ≤ s.floor
  covered : s.floor ≤ s.count

namespace Operands.Alike

variable {p : Nat → Nat → Prop} {a b : List Value} {s t : Operands}

theorem count_eq (alike : Alike p a b s t) : t.count = s.count := by
  obtain ⟨u, v, hs, ht, same⟩ := alike.items
  have hs := congrArg List.length hs
  have ht := congrArg List.length ht
  have lengths := same.length_eq
  have height := alike.height
  simp only [List.length_append, Stack.length_eq] at hs ht
  simp only [Operands.count]
  omega

theorem accessible_eq (alike : Alike p a b s t) : t.accessible = s.accessible := by
  simp only [Operands.accessible, alike.count_eq, alike.floor]

theorem missing_eq (alike : Alike p a b s t) : t.missing = s.missing := by
  simp only [Operands.missing, alike.count_eq]

/-- As many operands lie above the ground as the height tells. -/
theorem length_above {u : List Value} (hs : s.items.toList = u ++ a) :
    s.count = u.length + a.length := by
  have := congrArg List.length hs
  simpa [Stack.length_eq, Operands.count] using this

section

variable (alike : Alike p a b s t)
include alike

theorem push {v w : Value} (vw : v.Same p w) : Alike p a b (s.push v) (t.push w) := by
  obtain ⟨x, y, hs, ht, same⟩ := alike.items
  refine ⟨⟨v :: x, w :: y, ?_, ?_, .cons vw same⟩, alike.height, alike.floor, alike.guarded, ?_⟩
  · simp [Operands.push, hs]
  · simp [Operands.push, ht]
  · exact Nat.le_succ_of_le alike.covered

/-- Taking operands off the top, above the floor. -/
theorem drop {n : Nat} (le : n ≤ s.accessible) :
    Alike p a b { s with items := s.items.drop n } { t with items := t.items.drop n } := by
  obtain ⟨u, v, hs, ht, same⟩ := alike.items
  have above := length_above hs
  have guarded := alike.guarded
  have covered := alike.covered
  have lengths := same.length_eq
  simp only [Operands.accessible] at le
  have inside : n ≤ u.length := by omega
  refine ⟨⟨u.drop n, v.drop n, ?_, ?_, List.forall₂_drop n same⟩, alike.height, alike.floor,
    alike.guarded, ?_⟩
  · simp only [Stack.toList_drop, hs]
    exact List.drop_append_of_le_length inside
  · simp only [Stack.toList_drop, ht]
    exact List.drop_append_of_le_length (by omega)
  · change s.floor ≤ s.count - n
    omega

theorem pop :
    Ends (fun x y => x.1.Same p y.1 ∧ Alike p a b x.2 y.2 ∧ x.2.floors = s.floors ∧
      y.2.floors = t.floors) s.pop t.pop := by
  simp only [Operands.pop, alike.accessible_eq, alike.missing_eq]
  by_cases none : s.accessible = 0
  · rw [if_pos none, if_pos none]
    exact .error
  · rw [if_neg none, if_neg none]
    have dropped := alike.drop (n := 1) (by omega)
    obtain ⟨u, v, hs, ht, same⟩ := alike.items
    have above := length_above hs
    have guarded := alike.guarded
    simp only [Operands.accessible] at none
    -- The floor is not below the ground, so the top operand is above it.
    cases same with
    | nil =>
      simp only [List.length_nil] at above
      omega
    | @cons x y u v xy same =>
      simp only [Stack.pop?, hs, ht, List.cons_append]
      exact .ok ⟨xy, dropped, rfl, rfl⟩

theorem peek (offset : Nat) : Ends (Value.Same p) (s.peek offset) (t.peek offset) := by
  simp only [Operands.peek, alike.accessible_eq, alike.missing_eq]
  by_cases visible : offset < s.accessible
  · rw [if_pos visible, if_pos visible]
    obtain ⟨u, v, hs, ht, same⟩ := alike.items
    have above := length_above hs
    have guarded := alike.guarded
    have lengths := same.length_eq
    simp only [Operands.accessible] at visible
    have element := getElem?_related same offset
    rw [hs, ht, List.getElem?_append_left (by omega), List.getElem?_append_left (by omega)]
    generalize u[offset]? = x at element
    generalize v[offset]? = y at element
    cases element with
    | none => exact .error
    | some xy => exact .ok xy
  · rw [if_neg visible, if_neg visible]
    exact .error

theorem topIs {wanted : Value → Bool}
    (respects : ∀ {v w : Value}, v.Same p w → wanted w = wanted v) :
    t.topIs wanted = s.topIs wanted := by
  have top := alike.peek 0
  simp only [Operands.topIs]
  generalize s.peek 0 = x at top
  generalize t.peek 0 = y at top
  cases top with
  | ok vw => exact respects vw
  | error => rfl

theorem take_accessible :
    List.Forall₂ (Value.Same p) (s.items.toList.take s.accessible)
      (t.items.toList.take t.accessible) := by
  obtain ⟨u, v, hs, ht, same⟩ := alike.items
  have above := length_above hs
  have guarded := alike.guarded
  have lengths := same.length_eq
  have inside : s.accessible ≤ u.length := by
    simp only [Operands.accessible]
    omega
  rw [alike.accessible_eq, hs, ht, List.take_append_of_le_length inside,
    List.take_append_of_le_length (by omega)]
  exact List.forall₂_take _ same

end

theorem takeWhile_related {α β : Type} {R : α → β → Prop} {xs : List α} {ys : List β}
    {f : α → Bool} {g : β → Bool} (same : List.Forall₂ R xs ys)
    (respects : ∀ {x y}, R x y → g y = f x) :
    List.Forall₂ R (xs.takeWhile f) (ys.takeWhile g) := by
  induction same with
  | nil => exact .nil
  | @cons x y _ _ xy _ ih =>
    rw [List.takeWhile_cons, List.takeWhile_cons, respects xy]
    by_cases holds : f x = true
    · rw [if_pos holds, if_pos holds]
      exact .cons xy ih
    · rw [if_neg holds, if_neg holds]
      exact .nil

theorem popUntil (alike : Alike p a b s t) {wanted : Value → Bool}
    (respects : ∀ {v w : Value}, v.Same p w → wanted w = wanted v) :
    Option.Rel (fun x y => SameAll p x.1 y.1 ∧ Alike p a b x.2 y.2 ∧ x.2.floors = s.floors ∧
      y.2.floors = t.floors) (s.popUntil wanted) (t.popUntil wanted) := by
  have above := takeWhile_related (f := (!wanted ·)) (g := (!wanted ·)) alike.take_accessible
    fun vw => by rw [respects vw]
  rw [alike.accessible_eq] at above
  have lengths := above.length_eq
  simp only [Operands.popUntil, alike.accessible_eq, ← lengths]
  by_cases found :
      ((s.items.toList.take s.accessible).takeWhile (!wanted ·)).length < s.accessible
  · rw [if_pos found, if_pos found]
    refine .some ⟨sameAll_iff.2 (List.rel_reverse above), ?_, rfl, rfl⟩
    exact alike.drop found
  · rw [if_neg found, if_neg found]
    exact .none

theorem truncate (alike : Alike p a b s t) (height : Nat) :
    Alike p a b (s.truncate height) (t.truncate height) := by
  have count := alike.count_eq
  have dropped := alike.drop (n := s.count - max height s.floor) (by
    simp only [Operands.accessible]
    omega)
  simp only [Operands.truncate, Stack.keep, alike.floor]
  rw [show t.items.size = s.items.size from count]
  exact dropped

theorem valuesFrom (alike : Alike p a b s t) {height : Nat} (le : a.length ≤ height) :
    SameAll p (s.valuesFrom height) (t.valuesFrom height) := by
  obtain ⟨u, v, hs, ht, same⟩ := alike.items
  have above := length_above hs
  have lengths := same.length_eq
  have count := alike.count_eq
  simp only [Operands.count] at above count
  simp only [Operands.valuesFrom, Stack.above, hs, ht, count]
  rw [List.take_append_of_le_length (by omega), List.take_append_of_le_length (by omega)]
  exact sameAll_iff.2 (List.rel_reverse (List.forall₂_take _ same))

end Operands.Alike

end Catena
