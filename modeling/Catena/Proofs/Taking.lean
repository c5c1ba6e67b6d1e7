import Catena.Step

set_option autoImplicit false

/-!
How operations take their operands. They are taken from the top, as far as they are accessible; an
operand that does not fit is gone, and nothing else has happened. Parameters take all their
arguments at once, and then bind them one by one.
-/

namespace Catena

theorem Operands.toList_eq_append_iff {s : Operands} {lower upper : List Value} :
    s.toList = lower ++ upper ↔ s.items.toList = upper.reverse ++ lower.reverse := by
  rw [toList, List.reverse_eq_iff, List.reverse_append]

/-- The operands without the topmost ones. -/
def Operands.spend (s : Operands) (n : Nat) : Operands := { s with items := s.items.drop n }

theorem Operands.toList_spend {s : Operands} {lower upper : List Value}
    (operands : s.toList = lower ++ upper) : (s.spend upper.length).toList = lower := by
  change (s.items.toList.drop upper.length).reverse = lower
  rw [toList_eq_append_iff.1 operands, List.drop_left' List.length_reverse, List.reverse_reverse]

/-- The topmost operands, the lowest first. -/
def Operands.topmost (s : Operands) (n : Nat) : List Value := (s.items.toList.take n).reverse

theorem Operands.toList_eq_spend (s : Operands) (n : Nat) :
    s.toList = (s.spend n).toList ++ s.topmost n := by
  rw [toList_eq_append_iff, topmost, toList, List.reverse_reverse, List.reverse_reverse]
  exact (List.take_append_drop n _).symm

theorem Operands.length_topmost {s : Operands} {n : Nat} (within : n ≤ s.accessible) :
    (s.topmost n).length = n := by
  rw [accessible, count] at within
  rw [topmost, List.length_reverse, List.length_take, Stack.length_eq]
  omega

theorem Operands.spend_spend (s : Operands) (k n : Nat) :
    (s.spend k).spend n = s.spend (k + n) := by
  have items : (s.items.drop k).drop n = s.items.drop (k + n) := Stack.ext List.drop_drop
  simp only [spend, items]

theorem Operands.accessible_spend (s : Operands) (n : Nat) :
    (s.spend n).accessible = s.accessible - n := by
  simp only [spend, accessible, count, floor, Stack.size_drop]
  omega

/-- The topmost `n` operands have been taken, all of them accessible, and nothing else has
happened. -/
structure Machine.Spends (n : Nat) (m m' : Machine) : Prop where
  accessible : n ≤ m.operands.accessible
  machine : m' = { m with operands := m.operands.spend n }

theorem Machine.Spends.refl (m : Machine) : m.Spends 0 m := ⟨Nat.zero_le _, rfl⟩

theorem Machine.Spends.trans {k n : Nat} {m m₁ m₂ : Machine} (first : m.Spends k m₁)
    (second : m₁.Spends n m₂) : m.Spends (k + n) m₂ := by
  obtain ⟨within, rfl⟩ := first
  obtain ⟨within', rfl⟩ := second
  rw [Operands.accessible_spend] at within'
  exact ⟨by omega, by rw [Operands.spend_spend]⟩

theorem Machine.Spends.count {n : Nat} {m m' : Machine} (spends : m.Spends n m') :
    m'.operands.count + n = m.operands.count := by
  obtain ⟨within, rfl⟩ := spends
  rw [Operands.accessible] at within
  rw [Operands.spend, Operands.count, Stack.size_drop, ← Operands.count]
  omega

namespace Exec

variable {α : Type} {m m' : Machine} {v : Value} {signal : Signal}

theorem pop_eq_ok_iff :
    pop m = .ok v m' ↔ m.operands.items.toList.head? = some v ∧ m.Spends 1 m' := by
  have height := m.operands.items.length_eq
  unfold pop Operands.pop
  by_cases none : m.operands.accessible = 0
  · rw [if_pos none]
    constructor
    · intro popped
      cases popped
    · rintro ⟨_, within, _⟩
      omega
  · rw [if_neg none]
    cases items : m.operands.items.toList with
    | nil =>
      rw [items, List.length_nil] at height
      exact absurd (by rw [Operands.accessible, Operands.count, ← height, Nat.zero_sub]) none
    | cons w rest =>
      simp only [Stack.pop?, items, List.head?_cons, Option.some.injEq]
      constructor
      · intro popped
        cases popped
        exact ⟨rfl, by omega, rfl⟩
      · rintro ⟨rfl, _, rfl⟩
        rfl

/-- What is taken is the last operand. -/
theorem of_pop_eq_ok {X : List Value} {w : Value} (operands : m.operands.toList = X ++ [w])
    (popped : pop m = .ok v m') : v = w ∧ m.Spends 1 m' ∧ m'.operands.toList = X := by
  obtain ⟨top, spent⟩ := pop_eq_ok_iff.1 popped
  rw [Operands.toList_eq_append_iff.1 operands] at top
  injection top with top
  refine ⟨top.symm, spent, ?_⟩
  rw [spent.machine]
  exact Operands.toList_spend operands

/-- As many operands as are accessible can be taken, the topmost last. -/
theorem popMany_of_accessible {wanted : Nat} (enough : wanted ≤ m.operands.accessible) :
    popMany wanted m =
      .ok (m.operands.topmost wanted) { m with operands := m.operands.spend wanted } := by
  induction wanted generalizing m with
  | zero => rfl
  | succ wanted ih =>
    have height := m.operands.items.length_eq
    cases items : m.operands.items.toList with
    | nil =>
      rw [items, List.length_nil] at height
      rw [Operands.accessible, Operands.count, ← height] at enough
      omega
    | cons v rest =>
      have popped : pop m = .ok v { m with operands := m.operands.spend 1 } :=
        pop_eq_ok_iff.2 ⟨by rw [items, List.head?_cons], by omega, rfl⟩
      have taken := ih (m := { m with operands := m.operands.spend 1 }) (by
        rw [Operands.accessible_spend]
        omega)
      have top : (m.operands.spend 1).topmost wanted ++ [v] = m.operands.topmost (wanted + 1) := by
        simp only [Operands.topmost, Operands.spend, Stack.toList_drop, items, List.drop_one,
          List.tail_cons, List.take_succ_cons, List.reverse_cons]
      simp only [popMany, Bind.bind, EStateM.bind, popped, taken, Operands.spend_spend]
      rw [top, Nat.add_comm 1]
      rfl

theorem takeArguments_of_accessible {wanted : Nat} (enough : wanted ≤ m.operands.accessible) :
    takeArguments wanted m =
      .ok (m.operands.topmost wanted) { m with operands := m.operands.spend wanted } := by
  simp only [takeArguments, Bind.bind, EStateM.bind, get_apply]
  rw [if_neg (Nat.not_lt.2 enough)]
  exact popMany_of_accessible enough

/-- The arguments of an operation are taken all at once or not at all. -/
theorem takeArguments_cases (wanted : Nat) (m : Machine) :
    (m.operands.accessible < wanted ∧ takeArguments wanted m =
      .error (.error (.tooFewArguments wanted m.operands.accessible)) m) ∨
    ∃ args m', takeArguments wanted m = .ok args m' ∧ m.Spends wanted m' ∧
      m.operands.toList = m'.operands.toList ++ args ∧ args.length = wanted := by
  by_cases few : m.operands.accessible < wanted
  · simp only [takeArguments, Bind.bind, EStateM.bind, get_apply, if_pos few]
    exact .inl ⟨few, rfl⟩
  · have enough := Nat.le_of_not_lt few
    exact .inr ⟨_, _, takeArguments_of_accessible enough, ⟨enough, rfl⟩,
      m.operands.toList_eq_spend wanted, Operands.length_topmost enough⟩

theorem of_takeArguments_eq_ok {wanted : Nat} {args : List Value}
    (taken : takeArguments wanted m = .ok args m') :
    m.Spends wanted m' ∧ m.operands.toList = m'.operands.toList ++ args ∧ args.length = wanted := by
  rcases takeArguments_cases wanted m with ⟨_, failed⟩ | ⟨_, _, taken', spends⟩
  · cases failed.symm.trans taken
  · cases taken'.symm.trans taken
    exact spends

theorem of_pop_eq_error (failed : pop m = .error signal m') :
    (∃ e, signal = .error e) ∧ m.Spends 0 m' := by
  unfold pop at failed
  split at failed <;> cases failed
  exact ⟨⟨_, rfl⟩, .refl _⟩

variable {operator expected : String} {read? : Value → Option α} {a : α}

theorem popAs_eq_ok_iff :
    popAs operator expected read? m = .ok a m' ↔ ∃ v, pop m = .ok v m' ∧ read? v = some a := by
  constructor
  · intro ran
    obtain ⟨v, m₁, popped, ran⟩ := bind_eq_ok ran
    cases found : read? v with
    | none =>
      simp only [found] at ran
      cases ran
    | some b =>
      simp only [found] at ran
      cases ran
      exact ⟨v, popped, found⟩
  · rintro ⟨v, popped, found⟩
    simp only [popAs, Bind.bind, EStateM.bind, popped, found]
    rfl

theorem of_popAs_eq_error (failed : popAs operator expected read? m = .error signal m') :
    (∃ e, signal = .error e) ∧ ∃ n ≤ 1, m.Spends n m' := by
  rcases bind_eq_error failed with missing | ⟨v, m₁, popped, refused⟩
  · obtain ⟨cause, kept⟩ := of_pop_eq_error missing
    exact ⟨cause, 0, Nat.zero_le 1, kept⟩
  · cases found : read? v with
    | some b =>
      simp only [found] at refused
      cases refused
    | none =>
      simp only [found] at refused
      cases refused
      exact ⟨⟨_, rfl⟩, 1, Nat.le_refl 1, (pop_eq_ok_iff.1 popped).2⟩

theorem popName_eq_ok_iff {name : String} :
    popName operator m = .ok name m' ↔ pop m = .ok (.sym name) m' := by
  unfold popName
  rw [popAs_eq_ok_iff]
  constructor
  · rintro ⟨v, popped, found⟩
    split at found
    · cases found
      exact popped
    · cases found
  · intro popped
    exact ⟨_, popped, rfl⟩

theorem of_ofExcept_eq_error {x : Except RuntimeError α}
    (failed : ofExcept x m = .error signal m') : (∃ e, signal = .error e) ∧ m' = m := by
  cases x with
  | ok a => cases failed
  | error e =>
    cases failed
    exact ⟨⟨e, rfl⟩, rfl⟩

theorem of_change_eq_error {f : Machine → Except RuntimeError Machine}
    (failed : change f m = .error signal m') : (∃ e, signal = .error e) ∧ m' = m := by
  unfold change at failed
  split at failed <;> cases failed
  exact ⟨⟨_, rfl⟩, rfl⟩

theorem change_eq_ok_iff {f : Machine → Except RuntimeError Machine} :
    change f m = .ok () m' ↔ f m = .ok m' := by
  unfold change
  cases f m <;> simp

theorem ofExcept_eq_ok_iff {x : Except RuntimeError α} :
    ofExcept x m = .ok a m' ↔ x = .ok a ∧ m' = m := by
  cases x with
  | error e =>
    constructor
    · intro ran
      cases ran
    · rintro ⟨found, _⟩
      cases found
  | ok b =>
    constructor
    · intro ran
      cases ran
      exact ⟨rfl, rfl⟩
    · rintro ⟨found, rfl⟩
      cases found
      rfl

end Exec

/-! ### Binding parameters -/

/-- How many parameters a closure declares. -/
def Closure.arity (c : Closure Value) : Nat := c.signature.elim 0 Signature.arity

/-- The topmost `n` operands have been taken and names bound in the active scope, and nothing else
has happened. -/
def Machine.Absorbs (n : Nat) (m m' : Machine) : Prop :=
  ∃ mid active, m.Spends n mid ∧ m' = { mid with scopes := ⟨active, m.scopes.saved⟩ }

namespace Machine.Absorbs

variable {n : Nat} {m m' : Machine} (absorbs : m.Absorbs n m')
include absorbs

theorem count : m'.operands.count + n = m.operands.count := by
  obtain ⟨_, _, spends, rfl⟩ := absorbs
  exact spends.count

theorem floors : m'.operands.floors = m.operands.floors := by
  obtain ⟨_, _, ⟨_, rfl⟩, rfl⟩ := absorbs
  rfl

theorem arguments : ∃ args, args.length = n ∧ m.operands.toList = m'.operands.toList ++ args := by
  obtain ⟨_, _, ⟨within, rfl⟩, rfl⟩ := absorbs
  exact ⟨_, Operands.length_topmost within, m.operands.toList_eq_spend n⟩

end Machine.Absorbs

/-- How an action on `m` ends that takes `wanted` operands and binds names. It fails for an operand,
never for want of frames. -/
def Exec.Absorbed (wanted : Nat) (m : Machine) : EStateM.Result Signal Machine Unit → Prop
  | .ok _ m' => m.Absorbs wanted m'
  | .error signal m' =>
    (∃ n, m.Absorbs n m') ∧ ∃ e, signal = .error e ∧ e ≠ .depthExceeded

namespace Exec

variable {m m' : Machine} {c : Closure Value}

theorem checkType_ne (types active : Scope) (type : String) (v : Value) :
    checkType types active type v ≠ .error .depthExceeded := by
  intro failed
  have unknown := checkType_eq_error failed
  simp [RuntimeError.unknownType, RuntimeError.depthExceeded] at unknown

theorem check_ne (p : Param) (types active : Scope) (v : Value) :
    p.check types active v ≠ .error .depthExceeded := by
  unfold Param.check
  split
  · simp
  · next type _ =>
    have other := checkType_ne types active type v
    split
    · simp
    · simp [RuntimeError.parameterMismatch, RuntimeError.depthExceeded]
    · next e found =>
      rw [found] at other
      exact fun h => other (by cases h; rfl)

theorem absorbed_bindInto {wanted : Nat} (spends : m.Spends wanted m') (params : List Param)
    (values : List Value) (active : Scope) :
    Absorbed wanted m
      (bindInto params values { m' with scopes := ⟨active, m.scopes.saved⟩ }) := by
  induction params generalizing values active with
  | nil => exact ⟨m', active, spends, rfl⟩
  | cons p params ih =>
    cases values with
    | nil => exact ⟨m', active, spends, rfl⟩
    | cons v values =>
      have other := check_ne p active active v
      cases checked : p.check active active v with
      | error e =>
        rw [bindInto_of_refused checked]
        exact ⟨⟨wanted, m', active, spends, rfl⟩, e, rfl, fun h => other (h ▸ checked)⟩
      | ok _ =>
        rw [bindInto_of_accepted checked]
        exact ih values _

theorem absorbed_bindParameters (c : Closure Value) (m : Machine) :
    Absorbed c.arity m (bindParameters c m) := by
  unfold bindParameters Closure.arity
  cases c.signature with
  | none => exact ⟨m, m.scopes.active, .refl m, rfl⟩
  | some signature =>
    simp only [bind, Bind.bind, EStateM.bind, Option.elim_some]
    rcases takeArguments_cases signature.arity m with ⟨_, few⟩ | ⟨args, _, taken, spends, _⟩
    · rw [few]
      refine ⟨⟨0, m, m.scopes.active, .refl m, rfl⟩, _, rfl, ?_⟩
      simp [RuntimeError.tooFewArguments, RuntimeError.depthExceeded]
    · rw [taken]
      obtain rfl := spends.machine
      exact absorbed_bindInto spends signature.params args m.scopes.active

theorem absorbs_of_bindParameters (bound : bindParameters c m = .ok () m') :
    m.Absorbs c.arity m' := by
  have absorbed := absorbed_bindParameters c m
  rwa [bound] at absorbed

end Exec

end Catena
