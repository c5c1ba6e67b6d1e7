import Catena.Step
import Catena.Proofs.Uniform
import Mathlib.Order.Basic

set_option autoImplicit false

/-!
Identities of two machines. A pairing grows as the machines give out identities; what was the same
under it stays the same. Frames, signals and registries are the same if the values in them are.
-/

namespace Catena

/-- Which identities of one machine stand for which of another, and the next one that each of them
gives out. The next ones are new on both sides, or all of them are paired from the start. -/
structure Pairing where
  rel : Nat → Nat → Prop
  left : Nat
  right : Nat
  one : OneToOne rel
  supply : (∀ k, rel (left + k) (right + k)) ∨ ∀ i j, rel i j → i < left ∧ j < right

namespace Pairing

/-- Only identities that have been given out are paired. -/
def Bounded (p : Pairing) : Prop := ∀ i j, p.rel i j → i < p.left ∧ j < p.right

instance : Preorder Pairing where
  le p q := (∀ i j, p.rel i j → q.rel i j) ∧ p.left ≤ q.left ∧ p.right ≤ q.right ∧
    (∀ i j, q.rel i j → p.rel i j ∨ (p.left ≤ i ∧ p.right ≤ j)) ∧ (p.Bounded → q.Bounded)
  le_refl p := ⟨fun _ _ h => h, Nat.le_refl _, Nat.le_refl _, fun _ _ h => .inl h, id⟩
  le_trans p q r pq qr := by
    obtain ⟨keeps, left, right, new, bounded⟩ := pq
    obtain ⟨keeps', left', right', new', bounded'⟩ := qr
    refine ⟨fun i j h => keeps' i j (keeps i j h), Nat.le_trans left left',
      Nat.le_trans right right', fun i j paired => ?_, bounded' ∘ bounded⟩
    rcases new' i j paired with old | later
    · exact new i j old
    · exact .inr ⟨Nat.le_trans left later.1, Nat.le_trans right later.2⟩

/-- A machine paired with itself. -/
def self (next : Nat) : Pairing where
  rel := Eq
  left := next
  right := next
  one := ⟨fun h h' => h.trans h'.symm, fun h h' => h.symm.trans h'⟩
  supply := .inl fun _ => rfl

/-- Both machines have given out an identity. -/
def next (p : Pairing) : Pairing where
  rel i j := p.rel i j ∨ (i = p.left ∧ j = p.right)
  left := p.left + 1
  right := p.right + 1
  one := by
    rcases p.supply with all | new
    · have paired : p.rel p.left p.right := all 0
      constructor
      · rintro i j k (h | ⟨rfl, rfl⟩) (h' | ⟨rfl, h'⟩)
        · exact p.one.injective h h'
        · subst h'
          exact p.one.injective h paired
        · exact p.one.injective paired h'
        · rfl
      · rintro i j k (h | ⟨rfl, rfl⟩) (h' | ⟨h', rfl⟩)
        · exact p.one.functional h h'
        · subst h'
          exact p.one.functional h paired
        · exact p.one.functional paired h'
        · rfl
    · constructor
      · rintro i j k (h | ⟨rfl, rfl⟩) (h' | ⟨rfl, h'⟩)
        · exact p.one.injective h h'
        · have := (new i k h).2
          omega
        · have := (new j _ h').2
          omega
        · rfl
      · rintro i j k (h | ⟨rfl, rfl⟩) (h' | ⟨h', rfl⟩)
        · exact p.one.functional h h'
        · have := (new i j h).1
          omega
        · have := (new _ k h').1
          omega
        · rfl
  supply := by
    rcases p.supply with all | new
    · refine .inl fun k => .inl ?_
      have := all (k + 1)
      rwa [show p.left + 1 + k = p.left + (k + 1) by omega,
        show p.right + 1 + k = p.right + (k + 1) by omega]
    · refine .inr fun i j h => ?_
      rcases h with h | ⟨rfl, rfl⟩
      · have := new i j h
        omega
      · omega

theorem le_next (p : Pairing) : p ≤ p.next := by
  refine ⟨fun i j h => .inl h, Nat.le_succ _, Nat.le_succ _, ?_, fun bounded => ?_⟩
  · rintro i j (h | ⟨rfl, rfl⟩)
    · exact .inl h
    · exact .inr ⟨Nat.le_refl _, Nat.le_refl _⟩
  · rintro i j (h | ⟨rfl, rfl⟩)
    · have := bounded i j h
      exact ⟨Nat.lt_succ_of_lt this.1, Nat.lt_succ_of_lt this.2⟩
    · exact ⟨Nat.lt_succ_self _, Nat.lt_succ_self _⟩

theorem rel_next (p : Pairing) : p.next.rel p.left p.right := .inr ⟨rfl, rfl⟩

/-- The identities from `k` up to `k'` have been given out on the right and stand for nothing yet;
those below `old` stand for themselves. -/
structure Reserves (p : Pairing) (old k k' : Nat) : Prop where
  kept : ∀ i < old, p.rel i i
  bounded : p.Bounded
  given : k' ≤ p.right
  free : ∀ i j, p.rel i j → ¬ (k ≤ j ∧ j < k')

theorem Reserves.grow {p q : Pairing} {old k k' : Nat} (reserves : p.Reserves old k k')
    (le : p ≤ q) : q.Reserves old k k' := by
  obtain ⟨keeps, _, right, new, bounded⟩ := le
  refine ⟨fun i lt => keeps i i (reserves.kept i lt), bounded reserves.bounded,
    Nat.le_trans reserves.given right, fun i j paired => ?_⟩
  rcases new i j paired with before | later
  · exact reserves.free i j before
  · have given := reserves.given
    omega

/-- On the left identities are given out for the first ones in reserve. -/
def adopt (p : Pairing) {old k k' : Nat} (reserves : p.Reserves old k k') (count : Nat)
    (le : k + count ≤ k') : Pairing where
  rel i j := p.rel i j ∨ ∃ d < count, i = p.left + d ∧ j = k + d
  left := p.left + count
  right := p.right
  one := by
    constructor
    · rintro i j l (h | ⟨d, lt, rfl, rfl⟩) (h' | ⟨d', lt', rfl, same⟩)
      · exact p.one.injective h h'
      · exact absurd ⟨by omega, by omega⟩ (reserves.free i l h)
      · exact absurd ⟨by omega, by omega⟩ (reserves.free j _ h')
      · omega
    · rintro i j l (h | ⟨d, lt, rfl, rfl⟩) (h' | ⟨d', lt', same, rfl⟩)
      · exact p.one.functional h h'
      · have := (reserves.bounded i j h).1
        omega
      · have := (reserves.bounded _ l h').1
        omega
      · omega
  supply := .inr <| by
    have given := reserves.given
    rintro i j (h | ⟨d, lt, rfl, rfl⟩)
    · have := reserves.bounded i j h
      omega
    · omega

theorem Reserves.adopt {p : Pairing} {old k k' : Nat} (reserves : p.Reserves old k k') {count : Nat}
    (le : k + count ≤ k') : (p.adopt reserves count le).Reserves old (k + count) k' := by
  have given := reserves.given
  refine ⟨fun i lt => .inl (reserves.kept i lt), ?_, given, ?_⟩
  · rintro i j (h | ⟨d, lt, rfl, rfl⟩)
    · have := reserves.bounded i j h
      simp only [Pairing.adopt]
      omega
    · simp only [Pairing.adopt]
      omega
  · rintro i j (h | ⟨d, lt, rfl, rfl⟩) inside
    · exact reserves.free i j h ⟨by omega, inside.2⟩
    · omega

theorem eq_of_self_le {p : Pairing} {n : Nat} (le : self n ≤ p) {i j : Nat} (h : p.rel i j) :
    j = i :=
  p.one.functional h (le.1 i i rfl)

/-- A machine paired with itself gives out the same identities on both sides. -/
theorem right_eq_of_self_le {p : Pairing} {n : Nat} (le : self n ≤ p) : p.right = p.left := by
  rcases p.supply with all | new
  · exact eq_of_self_le le (all 0)
  · exact absurd (new _ _ (le.1 p.left p.left rfl)).1 (Nat.lt_irrefl _)

end Pairing

section

variable {p q : Pairing}

theorem Value.Same.grow {v w : Value} (same : v.Same p.rel w) (le : p ≤ q) : v.Same q.rel w :=
  same.mono le.1

theorem SameAll.grow {a b : List Value} (same : SameAll p.rel a b) (le : p ≤ q) :
    SameAll q.rel a b :=
  same.mono le.1

theorem Bindings.Same.grow {s t : Bindings Value} (same : s.Same p.rel t) (le : p ≤ q) :
    s.Same q.rel t :=
  same.mono le.1

theorem Closure.Same.grow {c d : Closure Value} (same : c.Same p.rel d) (le : p ≤ q) :
    c.Same q.rel d :=
  same.mono le.1

theorem SamePairs.grow {a b : List (Value × Value)} (same : SamePairs p.rel a b) (le : p ≤ q) :
    SamePairs q.rel a b :=
  same.imp fun _ _ h => ⟨h.1.grow le, h.2.grow le⟩

end

/-! ### Frames, signals and registries -/

inductive Frame.Same (p : Nat → Nat → Prop) : Frame → Frame → Prop
  | program {tokens} : Frame.Same p (.program tokens) (.program tokens)
  | body {a b} : SameAll p a b → Frame.Same p (.body a) (.body b)
  | call {c d floor} : c.Same p d → Frame.Same p (.call c floor) (.call d floor)
  | loop {a b} : SameAll p a b → Frame.Same p (.loop a) (.loop b)
  | iterate {s t index withIndex a b} : s.Same p t → SameAll p a b →
      Frame.Same p (.iterate s index withIndex a) (.iterate t index withIndex b)
  | condTest {a b} : SamePairs p a b → Frame.Same p (.condTest a) (.condTest b)
  | condCheck {v w a b} : v.Same p w → SamePairs p a b →
      Frame.Same p (.condCheck v a) (.condCheck w b)
  | attempt {height} : Frame.Same p (.attempt height) (.attempt height)
  | update {a b field s t floor} : SameAll p a b → s.Same p t →
      Frame.Same p (.update a field s floor) (.update b field t floor)

inductive Signal.Same (p : Nat → Nat → Prop) : Signal → Signal → Prop
  | break : Signal.Same p .break .break
  | tailCall {c d} : c.Same p d → Signal.Same p (.tailCall c) (.tailCall d)
  | error {e} : Signal.Same p (.error e) (.error e)
  | await {a b} : a.Same p b → Signal.Same p (.await a) (.await b)

inductive Control.Same (p : Nat → Nat → Prop) : Control → Control → Prop
  | none : Control.Same p .none .none
  | break : Control.Same p .break .break
  | tailCall {c d} : c.Same p d → Control.Same p (.tailCall c) (.tailCall d)
  | throw {e} : Control.Same p (.throw e) (.throw e)
  | suspend : Control.Same p .suspend .suspend

def Registry.Same (p : Nat → Nat → Prop) (r s : Registry) : Prop :=
  List.Forall₂ (fun x y => x.1 = y.1 ∧ x.2.Same p y.2) r.entries s.entries

theorem optionRel_imp {α β : Type} {R R' : α → β → Prop} (h : ∀ a b, R a b → R' a b) {x : Option α}
    {y : Option β} (related : Option.Rel R x y) : Option.Rel R' x y := by
  cases related with
  | none => exact .none
  | some ab => exact .some (h _ _ ab)

theorem Frame.Same.mono {p q : Nat → Nat → Prop} (h : ∀ i j, p i j → q i j) {f g : Frame}
    (same : f.Same p g) : f.Same q g := by
  cases same with
  | program => exact .program
  | body ab => exact .body (ab.mono h)
  | call cd => exact .call (cd.mono h)
  | loop ab => exact .loop (ab.mono h)
  | iterate st ab => exact .iterate (st.mono h) (ab.mono h)
  | condTest ab => exact .condTest (ab.imp fun _ _ xy => ⟨xy.1.mono h, xy.2.mono h⟩)
  | condCheck vw ab =>
    exact .condCheck (vw.mono h) (ab.imp fun _ _ xy => ⟨xy.1.mono h, xy.2.mono h⟩)
  | attempt => exact .attempt
  | update ab st => exact .update (ab.mono h) (st.mono h)

theorem eq_of_forall₂ {α : Type} {R : α → α → Prop} (h : ∀ a b, R a b → b = a) {l l' : List α}
    (related : List.Forall₂ R l l') : l' = l := by
  induction related with
  | nil => rfl
  | cons ab _ ih => rw [h _ _ ab, ih]

section

variable {p : Nat → Nat → Prop} (h : ∀ i j, p i j → j = i)
include h

theorem Frame.Same.eq {f g : Frame} (same : f.Same p g) : g = f := by
  have pairs {a b : List (Value × Value)} (ab : SamePairs p a b) : b = a :=
    eq_of_forall₂ (fun _ _ xy => Prod.ext (xy.1.eq h) (xy.2.eq h)) ab
  cases same with
  | program => rfl
  | body ab => rw [ab.eq h]
  | call cd => rw [cd.eq h]
  | loop ab => rw [ab.eq h]
  | iterate st ab =>
    cases st with
    | range => rw [ab.eq h]
    | items cd => rw [cd.eq h, ab.eq h]
    | chars => rw [ab.eq h]
  | condTest ab => rw [pairs ab]
  | condCheck vw ab => rw [vw.eq h, pairs ab]
  | attempt => rfl
  | update ab st => rw [ab.eq h, st.eq h]

theorem Control.Same.eq {c d : Control} (same : c.Same p d) : d = c := by
  cases same with
  | tailCall cd => rw [cd.eq h]
  | _ => rfl

theorem Registry.Same.eq {r s : Registry} (same : Registry.Same p r s) : s = r := by
  have entries : s.entries = r.entries :=
    eq_of_forall₂ (fun _ _ xy => Prod.ext xy.1.symm (xy.2.eq h)) same
  exact congrArg Bindings.mk entries

end

theorem Frame.same_self {p : Nat → Nat → Prop} (h : ∀ i, p i i) (f : Frame) : f.Same p f := by
  have pairs : ∀ a : List (Value × Value), SamePairs p a a := fun a =>
    List.forall₂_same.2 fun x _ => ⟨x.1.same_self h, x.2.same_self h⟩
  cases f with
  | program => exact .program
  | body a => exact .body (sameAll_self h a)
  | call c => exact .call (c.same_self h)
  | loop a => exact .loop (sameAll_self h a)
  | iterate s index withIndex a =>
    refine .iterate ?_ (sameAll_self h a)
    cases s with
    | range => exact .range
    | items a => exact .items (sameAll_self h a)
    | chars => exact .chars
  | condTest a => exact .condTest (pairs a)
  | condCheck v a => exact .condCheck (v.same_self h) (pairs a)
  | attempt => exact .attempt
  | update a field s => exact .update (sameAll_self h a) (s.same_self h)

theorem Signal.Same.mono {p q : Nat → Nat → Prop} (h : ∀ i j, p i j → q i j) {s t : Signal}
    (same : s.Same p t) : s.Same q t := by
  cases same with
  | «break» => exact .break
  | tailCall cd => exact .tailCall (cd.mono h)
  | error => exact .error
  | await ab => exact .await (ab.mono h)

theorem Signal.same_self {p : Nat → Nat → Prop} (h : ∀ i, p i i) (s : Signal) : s.Same p s := by
  cases s with
  | «break» => exact .break
  | tailCall c => exact .tailCall (c.same_self h)
  | error => exact .error
  | await a => exact .await (a.same_self h)

theorem Control.Same.mono {p q : Nat → Nat → Prop} (h : ∀ i j, p i j → q i j) {c d : Control}
    (same : c.Same p d) : c.Same q d := by
  cases same with
  | tailCall cd => exact .tailCall (cd.mono h)
  | none => exact .none
  | «break» => exact .break
  | throw => exact .throw
  | suspend => exact .suspend

theorem Control.same_self {p : Nat → Nat → Prop} (h : ∀ i, p i i) (c : Control) : c.Same p c := by
  cases c with
  | none => exact .none
  | «break» => exact .break
  | tailCall c => exact .tailCall (c.same_self h)
  | throw => exact .throw
  | suspend => exact .suspend

theorem Registry.same_self {p : Nat → Nat → Prop} (h : ∀ i, p i i) (r : Registry) :
    Registry.Same p r r :=
  List.forall₂_same.2 fun x _ => ⟨rfl, x.2.same_self h⟩

theorem Registry.Same.mono {p q : Nat → Nat → Prop} (h : ∀ i j, p i j → q i j) {r s : Registry}
    (same : Registry.Same p r s) : Registry.Same q r s :=
  same.imp fun _ _ xy => ⟨xy.1, xy.2.mono h⟩

theorem Registry.Same.get? {p : Nat → Nat → Prop} {r s : Registry} (same : Registry.Same p r s)
    (name : String) : Option.Rel (Builtin.Same p) (r.get? name) (s.get? name) :=
  find?_related same name

end Catena
