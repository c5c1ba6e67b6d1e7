import Catena.Value.Equality
import Catena.Value.Kind

set_option autoImplicit false

/-!
What equality of values is. Where no float is met it is an equivalence: two values are equal just
when they have the same content, which knows no identity of an array or a quotation, nothing that a
closure holds, and of operations and references the name alone. So it does not matter whether two
arrays that are compared are one and the same. Floats take away reflexivity (NaN), transitivity and
the difference between kinds (integers are compared with floats as floats), but equality stays
symmetric.
-/

namespace Catena

/-! ### Floats -/

namespace Number

open Float.Model

theorem compare_swap (a b : UnpackedFloat) : b.compare a = (a.compare b).map Ordering.swap := by
  cases a with
  | notANumber => cases b <;> rfl
  | infinity s =>
    cases b with
    | infinity t => cases s <;> cases t <;> rfl
    | _ => cases s <;> rfl
  | zero s =>
    cases b with
    | infinity t => cases t <;> rfl
    | finite t => cases t <;> rfl
    | _ => rfl
  | finite s m e _ =>
    cases b with
    | notANumber => cases s <;> rfl
    | infinity t => cases s <;> cases t <;> rfl
    | zero _ => cases s <;> rfl
    | finite t n f _ =>
      have exponents : compare f e = (compare e f).swap := Std.OrientedOrd.eq_swap
      have mantissas : compare n m = (compare m n).swap := Std.OrientedOrd.eq_swap
      have swapped : (compare f e).then (compare n m) =
          ((compare e f).then (compare m n)).swap := by
        rw [exponents, mantissas, Ordering.swap_then]
      cases s with
      | positive =>
        cases t with
        | positive => exact congrArg some swapped
        | negative => rfl
      | negative =>
        cases t with
        | positive => rfl
        | negative => exact congrArg (fun order => some order.swap) swapped

theorem float_beq_comm (a b : Float) : (a == b) = (b == a) := by
  change (a.toModel.unpack.compare b.toModel.unpack == some .eq) =
    (b.toModel.unpack.compare a.toModel.unpack == some .eq)
  rw [compare_swap a.toModel.unpack b.toModel.unpack]
  cases a.toModel.unpack.compare b.toModel.unpack with
  | none => rfl
  | some order => cases order <;> rfl

/-- Only NaN differs from itself. -/
theorem float_beq_self_or_isNaN (a : Float) : (a == a || a.isNaN) = true := by
  change (a.toModel.unpack.compare a.toModel.unpack == some .eq || a.toModel.unpack.isNaN) = true
  cases a.toModel.unpack with
  | notANumber => rfl
  | zero _ => rfl
  | infinity s => cases s <;> rfl
  | finite s m e _ =>
    have same : (compare e e).then (compare m m) = .eq := by simp
    cases s with
    | positive =>
      change (some ((compare e e).then (compare m m)) == some .eq || false) = true
      rw [same]
      rfl
    | negative =>
      change (some ((compare e e).then (compare m m)).swap == some .eq || false) = true
      rw [same]
      rfl

end Number

namespace Value

/-! ### All values -/

mutual

theorem equalIn_comm (shared : Bool) : ∀ v w : Value, equalIn shared v w = equalIn shared w v
  | .array i a, w => by
    cases w with
    | array j b => rw [equalIn, equalIn, BEq.comm, equalItems_comm]
    | _ => rfl
  | .quote i a, w => by
    cases w with
    | quote j b => rw [equalIn, equalIn, BEq.comm, equalItems_comm]
    | _ => rfl
  | .float x, w => by
    cases w with
    | float y => rw [equalIn, equalIn, Number.float_beq_comm, Bool.and_right_comm]
    | _ => rfl
  | .int _, w | .bool _, w | .str _, w | .sym _, w | .nil, w | .closure _, w | .op .., w |
    .signature _, w | .marker _, w | .ref .., w | .error _, w => by
    cases w <;> simp [equalIn, BEq.comm]

theorem equalItems_comm (shared : Bool) :
    ∀ a b : List Value, equalItems shared a b = equalItems shared b a
  | [], [] => rfl
  | [], _ :: _ => rfl
  | _ :: _, [] => rfl
  | v :: a, w :: b => by rw [equalItems, equalItems, equalIn_comm, equalItems_comm]

end

mutual

/-- A part of a container that is compared with itself equals itself. -/
theorem equalIn_shared_self : ∀ v : Value, equalIn true v v = true
  | .array i a => by rw [equalIn, Bool.true_or, equalItems_shared_self]
  | .quote i a => by rw [equalIn, Bool.true_or, equalItems_shared_self]
  | .float x => by
    rw [equalIn, Bool.true_and, Bool.and_self]
    exact Number.float_beq_self_or_isNaN x
  | .int _ | .bool _ | .str _ | .sym _ | .nil | .closure _ | .op .. | .signature _ | .marker _ |
    .ref .. | .error _ => by simp [equalIn]

theorem equalItems_shared_self : ∀ a : List Value, equalItems true a a = true
  | [] => rfl
  | v :: a => by rw [equalItems, equalIn_shared_self, equalItems_shared_self, Bool.and_self]

end

theorem equalItems_eq_beq (a b : List Value) : equalItems false a b = (a == b) := by
  induction a generalizing b with
  | nil => cases b <;> rfl
  | cons v a ih =>
    cases b with
    | nil => rfl
    | cons w b => rw [equalItems, ih, List.cons_beq_cons]; rfl

/-! ### Values without floats -/

mutual

/-- Whether a comparison meets no float in the value: it looks into arrays and quotations, but not
into closures. -/
def isFloatFree : Value → Bool
  | .float _ => false
  | .array _ items => areFloatFree items
  | .quote _ code => areFloatFree code
  | _ => true

def areFloatFree : List Value → Bool
  | [] => true
  | v :: rest => v.isFloatFree && areFloatFree rest

end

mutual

/-- The value without what a comparison leaves out of account. -/
def content : Value → Value
  | .array _ items => .array 0 (contents items)
  | .quote _ code => .quote 0 (contents code)
  | .closure c => .closure ⟨c.id, none, [], none, .empty⟩
  | .op o _ => .op (.builtin ⟨o.name, .reply .nothing⟩) .none
  | .ref name _ => .ref name .none
  | other => other

def contents : List Value → List Value
  | [] => []
  | v :: rest => v.content :: contents rest

end

theorem typeName_content (v : Value) : v.content.typeName = v.typeName := by
  cases v <;> rfl

mutual

theorem equalIn_eq_true_iff (shared : Bool) : ∀ {v w : Value}, v.isFloatFree = true →
    w.isFloatFree = true → (equalIn shared v w = true ↔ v.content = w.content)
  | .array i a, w, free, free' => by
    cases w with
    | array j b =>
      rw [equalIn, equalItems_eq_true_iff _ free free', content, content]
      simp
    | _ => simp [equalIn, content]
  | .quote i a, w, free, free' => by
    cases w with
    | quote j b =>
      rw [equalIn, equalItems_eq_true_iff _ free free', content, content]
      simp
    | _ => simp [equalIn, content]
  | .int _, w, _, free | .bool _, w, _, free | .str _, w, _, free | .sym _, w, _, free |
    .nil, w, _, free | .closure _, w, _, free | .op .., w, _, free | .signature _, w, _, free |
    .marker _, w, _, free | .ref .., w, _, free | .error _, w, _, free => by
    cases w with
    | float _ => cases free
    | _ => simp [equalIn, content]

theorem equalItems_eq_true_iff (shared : Bool) : ∀ {a b : List Value}, areFloatFree a = true →
    areFloatFree b = true → (equalItems shared a b = true ↔ contents a = contents b)
  | [], [], _, _ => by simp [equalItems]
  | [], _ :: _, _, _ => by simp [equalItems, contents]
  | _ :: _, [], _, _ => by simp [equalItems, contents]
  | v :: a, w :: b, free, free' => by
    rw [areFloatFree, Bool.and_eq_true] at free free'
    rw [equalItems, Bool.and_eq_true, equalIn_eq_true_iff shared free.1 free'.1,
      equalItems_eq_true_iff shared free.2 free'.2, contents, contents, List.cons.injEq]

end

/-- A value in which a comparison meets no float. -/
def FloatFree : Type := { v : Value // v.isFloatFree = true }

namespace FloatFree

theorem beq_iff (v w : FloatFree) : (v.val == w.val) = true ↔ v.val.content = w.val.content :=
  equalIn_eq_true_iff false v.property w.property

theorem beq_equivalence : Equivalence fun v w : FloatFree => (v.val == w.val) = true where
  refl v := (beq_iff v v).2 rfl
  symm {v w} same := (beq_iff w v).2 ((beq_iff v w).1 same).symm
  trans {u v w} first second :=
    (beq_iff u w).2 (((beq_iff u v).1 first).trans ((beq_iff v w).1 second))

theorem beq_of_typeName_ne (v w : FloatFree) (kinds : v.val.typeName ≠ w.val.typeName) :
    (v.val == w.val) = false := by
  rw [← Bool.not_eq_true, beq_iff]
  intro same
  have same := congrArg typeName same
  rw [typeName_content, typeName_content] at same
  exact kinds same

end FloatFree

/-! ### One and the same container -/

/-- Without floats it does not matter whether the lists are parts of one container. -/
theorem equalItems_of_areFloatFree {a b : List Value} (free : areFloatFree a = true)
    (free' : areFloatFree b = true) (shared : Bool) : equalItems shared a b = (a == b) := by
  rw [← equalItems_eq_beq, Bool.eq_iff_iff, equalItems_eq_true_iff shared free free',
    equalItems_eq_true_iff false free free']

/-- Where an identity stands for one list of elements only, a container equals itself, and different
containers are compared element by element. -/
theorem equalItems_of_identity {i j : Nat} {a b : List Value} (identity : i = j → a = b) :
    equalItems (i == j) a b = (i == j || a == b) := by
  by_cases same : i = j
  · obtain rfl := identity same
    rw [beq_iff_eq.2 same, equalItems_shared_self, Bool.true_or]
  · rw [beq_eq_false_iff_ne.2 same, equalItems_eq_beq, Bool.false_or]

end Value

open Value

/-- On values without floats equality is an equivalence that keeps the kinds apart and sees nothing
but the content. Arrays and quotations are compared by identity first and then element by element;
the answer is that of the elements alone. On all values whatsoever equality is symmetric. -/
theorem equality_lawful :
    (Equivalence fun v w : FloatFree => (v.val == w.val) = true) ∧
    (∀ v w : FloatFree, v.val.typeName ≠ w.val.typeName → (v.val == w.val) = false) ∧
    (∀ v w : FloatFree, (v.val == w.val) = true ↔ v.val.content = w.val.content) ∧
    (∀ (i j : Nat) (a b : List Value), (i = j → a = b) →
      (Value.array i a == .array j b) = (i == j || a == b) ∧
      (Value.quote i a == .quote j b) = (i == j || a == b)) ∧
    (∀ (i j : Nat) (a b : List Value), areFloatFree a = true → areFloatFree b = true →
      (Value.array i a == .array j b) = (a == b) ∧ (Value.quote i a == .quote j b) = (a == b)) ∧
    ∀ v w : Value, (v == w) = (w == v) := by
  refine ⟨FloatFree.beq_equivalence, FloatFree.beq_of_typeName_ne, FloatFree.beq_iff,
    fun i j a b identity => ?_, fun i j a b free free' => ?_, equalIn_comm false⟩
  · exact ⟨equalItems_of_identity identity, equalItems_of_identity identity⟩
  · exact ⟨equalItems_of_areFloatFree free free' _, equalItems_of_areFloatFree free free' _⟩

/-- Two arrays that share a closure with a float in it and hold quotations of one content. -/
theorem equality_lawful_nested :
    let c : Value := .closure ⟨7, none, [.float 0.5], none, .empty⟩
    let a : List Value := [.int 1, .quote 4 [.ref "x" ⟨1, 2⟩, c]]
    let b : List Value := [.int 1, .quote 5 [.ref "x" ⟨3, 4⟩, c]]
    (Value.array 8 a == .array 9 b) = (a == b) ∧ (Value.array 8 a == .array 9 b) = true ∧
      (Value.array 8 a == .array 8 a) = (8 == 8 || a == a) ∧
      (Value.array 8 a == .quote 8 a) = false := by
  intro c a b
  obtain ⟨_, kinds, contents, identity, elements, _⟩ := equality_lawful
  refine ⟨(elements 8 9 a b rfl rfl).1, (contents ⟨.array 8 a, rfl⟩ ⟨.array 9 b, rfl⟩).2 rfl,
    (identity 8 8 a a fun _ => rfl).1, kinds ⟨.array 8 a, rfl⟩ ⟨.quote 8 a, rfl⟩ ?_⟩
  decide

/-- A NaN is the exception: it differs from itself, but not within one and the same array. -/
example :
    let nan : Value := .float (0.0 / 0.0)
    (nan == nan) = false ∧ (Value.array 0 [nan] == .array 0 [nan]) = true ∧
      (Value.array 0 [nan] == .array 1 [nan]) = false := by
  decide +kernel

end Catena
