import Catena.Proofs.Updating
import Mathlib.Data.List.TakeWhile

set_option autoImplicit false

/-!
The operand stack under any use. Floors are set and released in any order and operands come and go
between, yet no floor is ever above the operands or above a floor that was set after it. So an
operand can be had just when it lies above the active floor, and what lies below is out of reach.
-/

namespace Catena

namespace Operands

/-- What can be done to an operand stack. -/
inductive Use where
  | push (v : Value)
  | pop
  | peek (offset : Nat)
  | popUntil (wanted : Value → Bool)
  | truncate (height : Nat)
  | clear
  | forbid
  | allow (height : Nat)

/-- The stack after a use, which leaves it alone if there is nothing to be had. -/
def after (s : Operands) : Use → Operands
  | .push v => s.push v
  | .pop =>
    match s.pop with
    | .ok (_, rest) => rest
    | .error _ => s
  | .peek _ => s
  | .popUntil wanted =>
    match s.popUntil wanted with
    | some (_, rest) => rest
    | none => s
  | .truncate height => s.truncate height
  | .clear => .empty
  | .forbid => s.forbid
  | .allow height => s.allow height

variable {s : Operands}

/-! ### Single operands -/

/-- The error says whether there are operands at all. -/
def Lacks (s : Operands) (e : RuntimeError) : Prop :=
  (e = .stackEmpty ↔ s.count = 0) ∧ (e = .stackOutOfRange ↔ 0 < s.count)

theorem lacks_iff {e : RuntimeError} : s.Lacks e ↔ s.missing = e := by
  unfold Lacks missing
  by_cases bare : s.count = 0
  · simp only [bare, if_true, Nat.lt_irrefl, iff_true, iff_false]
    constructor
    · rintro ⟨rfl, _⟩
      rfl
    · rintro rfl
      exact ⟨rfl, RuntimeError.noConfusion⟩
  · simp only [bare, if_false, Nat.pos_of_ne_zero bare, iff_true, iff_false]
    constructor
    · rintro ⟨_, rfl⟩
      rfl
    · rintro rfl
      exact ⟨RuntimeError.noConfusion, rfl⟩

theorem items_eq {rest : Operands} {above : List Value} (values : s.toList = rest.toList ++ above) :
    s.items.toList = above.reverse ++ rest.items.toList := by
  rw [toList_eq_append_iff.1 values, toList, List.reverse_reverse]

theorem exists_pop_of_accessible (some : 0 < s.accessible) :
    ∃ v rest, s.items.pop? = Option.some (v, rest) := by
  cases top : s.items.pop? with
  | some r => exact ⟨r.1, r.2, rfl⟩
  | none =>
    have height := s.items.length_eq
    rw [Stack.pop?_eq_none_iff.1 top, List.length_nil] at height
    rw [accessible, count, ← height] at some
    omega

theorem pop_eq_ok_iff {v : Value} {rest : Operands} :
    s.pop = .ok (v, rest) ↔
      0 < s.accessible ∧ s.toList = rest.toList ++ [v] ∧ rest.floors = s.floors := by
  by_cases none : s.accessible = 0
  · rw [pop, if_pos none, none]
    simp
  · have some := Nat.pos_of_ne_zero none
    obtain ⟨w, items, top⟩ := exists_pop_of_accessible some
    have found : s.pop = .ok (w, { s with items }) := by rw [pop, if_neg none, top]
    have values : s.toList = ({ s with items } : Operands).toList ++ [w] := by
      rw [toList, Stack.pop?_eq_some_iff.1 top, List.reverse_cons, toList]
    rw [found]
    constructor
    · intro same
      cases same
      exact ⟨some, values, rfl⟩
    · rintro ⟨_, values', floors⟩
      obtain ⟨lower, upper⟩ := List.append_inj' (values.symm.trans values') rfl
      obtain rfl := List.singleton_inj.1 upper
      rw [eq_of_toList lower floors.symm]

theorem pop_eq_error_iff {e : RuntimeError} :
    s.pop = .error e ↔ s.accessible = 0 ∧ s.Lacks e := by
  rw [lacks_iff]
  by_cases none : s.accessible = 0
  · rw [pop, if_pos none]
    simp [none]
  · obtain ⟨w, items, top⟩ := exists_pop_of_accessible (Nat.pos_of_ne_zero none)
    rw [pop, if_neg none, top]
    simp [none]

theorem after_pop_of_accessible (none : s.accessible = 0) : s.after .pop = s := by
  rw [after, pop, if_pos none]

theorem peek_cases (s : Operands) (offset : Nat) :
    (offset < s.accessible ∧ ∃ v, s.items.toList[offset]? = some v ∧ s.peek offset = .ok v) ∨
    (s.accessible ≤ offset ∧ s.peek offset = .error s.missing) := by
  by_cases within : offset < s.accessible
  · have height := s.items.length_eq
    have inside : offset < s.items.toList.length := by
      rw [accessible, count] at within
      omega
    have found := List.getElem?_eq_getElem inside
    refine .inl ⟨within, _, found, ?_⟩
    rw [peek, if_pos within, found]
  · refine .inr ⟨Nat.le_of_not_lt within, ?_⟩
    rw [peek, if_neg within]

theorem peek_eq_ok_iff {offset : Nat} {v : Value} :
    s.peek offset = .ok v ↔ offset < s.accessible ∧ s.toList.reverse[offset]? = some v := by
  rw [toList, List.reverse_reverse]
  rcases s.peek_cases offset with ⟨within, w, found, peeked⟩ | ⟨beyond, failed⟩
  · simp [peeked, within, found]
  · simp [failed, Nat.not_lt.2 beyond]

theorem peek_eq_error_iff {offset : Nat} {e : RuntimeError} :
    s.peek offset = .error e ↔ s.accessible ≤ offset ∧ s.Lacks e := by
  rw [lacks_iff]
  rcases s.peek_cases offset with ⟨within, w, found, peeked⟩ | ⟨beyond, failed⟩
  · simp [peeked, Nat.not_le.2 within]
  · simp [failed, beyond]

/-! ### Everything above an operand -/

/-- The topmost accessible operand that is wanted is `v`, with `above` on top of it; `rest` is what
lies below. -/
structure Splits (s : Operands) (wanted : Value → Bool) (v : Value) (above : List Value)
    (rest : Operands) : Prop where
  values : s.toList = rest.toList ++ v :: above
  found : wanted v = true
  topmost : ∀ w ∈ above, wanted w = false
  accessible : s.floor ≤ rest.count
  floors : rest.floors = s.floors

theorem Splits.popUntil_eq {wanted : Value → Bool} {v : Value} {above : List Value}
    {rest : Operands} (splits : s.Splits wanted v above rest) :
    s.popUntil wanted = some (above, rest) := by
  have items : s.items.toList = above.reverse ++ v :: rest.items.toList := by
    rw [items_eq splits.values, List.reverse_cons, List.append_assoc, List.singleton_append]
  have height : s.count = above.length + 1 + rest.count := by
    have lengths := congrArg List.length splits.values
    rw [length_toList, List.length_append, length_toList, List.length_cons] at lengths
    omega
  have reach := splits.accessible
  obtain ⟨more, within⟩ : ∃ more, s.accessible = above.reverse.length + (more + 1) := by
    refine ⟨rest.count - s.floor, ?_⟩
    rw [Operands.accessible, height, List.length_reverse]
    omega
  have taken : (s.items.toList.take s.accessible).takeWhile (!wanted ·) = above.reverse := by
    rw [items, within, List.take_length_add_append, List.take_succ_cons,
      List.takeWhile_append_of_pos, List.takeWhile_cons_of_neg, List.append_nil]
    · simp [splits.found]
    · intro w member
      simp [splits.topmost w (List.mem_reverse.1 member)]
  have lower : ({ s with items := s.items.drop (above.reverse.length + 1) } : Operands) = rest := by
    refine eq_of_toList ?_ splits.floors.symm
    rw [toList, Stack.toList_drop, items, List.drop_length_add_append, List.drop_one,
      List.tail_cons, toList]
  rw [popUntil]
  simp only [taken]
  rw [if_pos (by omega), lower, List.reverse_reverse]

/-- If an accessible operand is wanted, there is a topmost one. -/
theorem exists_splits {wanted : Value → Bool} {v : Value} (member : v ∈ s.valuesFrom s.floor)
    (found : wanted v = true) : ∃ w above rest, s.Splits wanted w above rest := by
  let reach := s.items.toList.take s.accessible
  cases cut : reach.dropWhile (!wanted ·) with
  | nil =>
    have passed := List.dropWhile_eq_nil_iff.1 cut v (List.mem_reverse.1 member)
    rw [found] at passed
    cases passed
  | cons w more =>
    let above := reach.takeWhile (!wanted ·)
    have split : reach = above ++ w :: more := by rw [← cut, List.takeWhile_append_dropWhile]
    have items : s.items.toList = above ++ w :: (more ++ s.items.toList.drop s.accessible) := by
      rw [← List.cons_append, ← List.append_assoc, ← split, List.take_append_drop]
    have short : above.length < s.accessible := by
      have lengths := congrArg List.length split
      rw [List.length_append, List.length_cons, List.length_take] at lengths
      omega
    refine ⟨w, above.reverse, { s with items := s.items.drop (above.length + 1) }, ?_, ?_, ?_, ?_,
      rfl⟩
    · rw [toList_eq_append_iff, List.reverse_cons, List.reverse_reverse, toList,
        List.reverse_reverse, Stack.toList_drop, items, List.drop_length_add_append]
      simp
    · have head := List.head?_dropWhile_not (!wanted ·) reach
      rw [cut] at head
      simpa using head
    · intro x inside
      simpa using List.mem_takeWhile_imp (List.mem_reverse.1 inside)
    · rw [accessible, count] at short
      rw [count, Stack.size_drop]
      omega

theorem popUntil_eq_none_iff {wanted : Value → Bool} :
    s.popUntil wanted = none ↔ ∀ v ∈ s.valuesFrom s.floor, wanted v = false := by
  constructor
  · intro none v member
    by_contra found
    obtain ⟨w, above, rest, splits⟩ := exists_splits member (eq_true_of_ne_false found)
    cases none.symm.trans splits.popUntil_eq
  · intro others
    have whole : (s.items.toList.take s.accessible).takeWhile (!wanted ·) =
        s.items.toList.take s.accessible := by
      refine List.takeWhile_eq_self_iff.2 fun v member => ?_
      simp [others v (List.mem_reverse.2 member)]
    have height := s.items.length_eq
    simp only [popUntil, whole, List.length_take]
    rw [if_neg]
    rw [accessible, count]
    omega

theorem popUntil_eq_some_iff {wanted : Value → Bool} {above : List Value} {rest : Operands} :
    s.popUntil wanted = some (above, rest) ↔ ∃ v, s.Splits wanted v above rest := by
  constructor
  · intro popped
    have other : ¬ ∀ v ∈ s.valuesFrom s.floor, wanted v = false := fun none => by
      cases popped.symm.trans (popUntil_eq_none_iff.2 none)
    simp only [not_forall, Bool.not_eq_false] at other
    obtain ⟨v, member, found⟩ := other
    obtain ⟨w, above', rest', splits⟩ := exists_splits member found
    cases popped.symm.trans splits.popUntil_eq
    exact ⟨w, splits⟩
  · rintro ⟨v, splits⟩
    exact splits.popUntil_eq

/-! ### Floors -/

/-- Floors are listed from the active one, which was set last; none is above a later one or above
the operands. -/
structure Orderly (s : Operands) : Prop where
  ordered : s.floors.Pairwise (· ≥ ·)
  covered : ∀ floor ∈ s.floors, floor ≤ s.count

theorem orderly_empty : empty.Orderly := ⟨.nil, List.forall_mem_nil _⟩

namespace Orderly

theorem le_floor (orderly : s.Orderly) : ∀ floor ∈ s.floors, floor ≤ s.floor := by
  have ordered := orderly.ordered
  unfold Operands.floor
  cases floors : s.floors with
  | nil => exact List.forall_mem_nil _
  | cons active lower =>
    rw [floors] at ordered
    exact List.forall_mem_cons.2 ⟨Nat.le_refl _, (List.pairwise_cons.1 ordered).1⟩

theorem floor_le (orderly : s.Orderly) : s.floor ≤ s.count := by
  have covered := orderly.covered
  unfold Operands.floor
  cases floors : s.floors with
  | nil => exact Nat.zero_le _
  | cons active lower =>
    rw [floors] at covered
    exact covered active List.mem_cons_self

end Orderly

theorem Orderly.valuesFrom_floor (orderly : s.Orderly) :
    s.valuesFrom s.floor = s.toList.drop s.floor := by
  have split := s.toList_eq orderly.floor_le
  exact List.append_cancel_left (split.symm.trans (List.take_append_drop s.floor s.toList).symm)

/-- One floor of the height is released, whichever others there are. -/
theorem exists_allow {height : Nat} (set : height ∈ s.floors) :
    ∃ later earlier, s.floors = later ++ height :: earlier ∧
      s.allow height = ⟨s.items, later ++ earlier⟩ := by
  obtain ⟨later, earlier, _, floors, released⟩ := List.exists_erase_eq set
  exact ⟨later, earlier, floors, congrArg (Operands.mk s.items) released⟩

/-- The stack has come down, but not below its active floor. -/
structure Lowers (s t : Operands) : Prop where
  values : ∃ above, s.toList = t.toList ++ above
  reach : s.floor ≤ t.count
  floors : t.floors = s.floors

theorem Lowers.take_floor {t : Operands} (lowers : s.Lowers t) :
    t.toList.take s.floor = s.toList.take s.floor := by
  obtain ⟨above, values⟩ := lowers.values
  have reach := lowers.reach
  rw [← length_toList] at reach
  rw [values, List.take_append_of_le_length reach]

namespace Orderly

section

variable (orderly : s.Orderly)
include orderly

theorem of_floor_le {t : Operands} (floors : t.floors = s.floors) (reach : s.floor ≤ t.count) :
    t.Orderly where
  ordered := by
    rw [floors]
    exact orderly.ordered
  covered floor member := by
    rw [floors] at member
    exact Nat.le_trans (orderly.le_floor floor member) reach

theorem lowers_self : s.Lowers s :=
  ⟨⟨[], (List.append_nil _).symm⟩, orderly.floor_le, rfl⟩

theorem lowers_pop : s.Lowers (s.after .pop) := by
  rw [after]
  cases popped : s.pop with
  | error e => exact orderly.lowers_self
  | ok r =>
    obtain ⟨some, values, floors⟩ := pop_eq_ok_iff.1 popped
    refine ⟨⟨[r.1], values⟩, ?_, floors⟩
    have height := count_of_pop popped
    rw [accessible] at some
    change s.floor ≤ r.2.count
    omega

theorem lowers_popUntil (wanted : Value → Bool) : s.Lowers (s.after (.popUntil wanted)) := by
  rw [after]
  cases popped : s.popUntil wanted with
  | none => exact orderly.lowers_self
  | some r =>
    obtain ⟨v, splits⟩ := popUntil_eq_some_iff.1 popped
    exact ⟨⟨v :: r.1, splits.values⟩, splits.accessible, splits.floors⟩

theorem lowers_truncate (height : Nat) : s.Lowers (s.after (.truncate height)) := by
  rw [after]
  refine ⟨⟨s.toList.drop (min (max height s.floor) s.count), ?_⟩, ?_, rfl⟩
  · rw [toList_truncate, List.take_append_drop]
  · have reach := orderly.floor_le
    rw [← length_toList, toList_truncate, List.length_take, length_toList]
    omega

/-- However the stack is used, its floors stay in order and among the operands. -/
theorem after (use : Use) : (s.after use).Orderly := by
  cases use with
  | push v => exact orderly.of_floor_le rfl (Nat.le_succ_of_le orderly.floor_le)
  | pop => exact orderly.of_floor_le orderly.lowers_pop.floors orderly.lowers_pop.reach
  | peek offset => exact orderly
  | popUntil wanted =>
    have lowers := orderly.lowers_popUntil wanted
    exact orderly.of_floor_le lowers.floors lowers.reach
  | truncate height =>
    have lowers := orderly.lowers_truncate height
    exact orderly.of_floor_le lowers.floors lowers.reach
  | clear => exact ⟨.nil, List.forall_mem_nil _⟩
  | forbid =>
    exact ⟨.cons orderly.covered orderly.ordered,
      List.forall_mem_cons.2 ⟨Nat.le_refl _, orderly.covered⟩⟩
  | allow height =>
    exact ⟨orderly.ordered.sublist List.erase_sublist,
      fun floor member => orderly.covered floor (List.mem_of_mem_erase member)⟩

theorem foldl_after (uses : List Use) : (uses.foldl Operands.after s).Orderly := by
  induction uses generalizing s with
  | nil => exact orderly
  | cons use uses ih => exact ih (orderly.after use)

theorem take_floor_after {use : Use} (keeps : use ≠ .clear) :
    (s.after use).toList.take s.floor = s.toList.take s.floor := by
  cases use with
  | push v =>
    have reach := orderly.floor_le
    rw [← length_toList] at reach
    rw [Operands.after, toList_push, List.take_append_of_le_length reach]
  | pop => exact orderly.lowers_pop.take_floor
  | popUntil wanted => exact (orderly.lowers_popUntil wanted).take_floor
  | truncate height => exact (orderly.lowers_truncate height).take_floor
  | clear => exact absurd rfl keeps
  | peek _ | forbid | allow _ => rfl

end

end Orderly

/-- What can be had from a stack, what is left of it, and what releasing a floor does. -/
structure Lawful (s : Operands) : Prop extends s.Orderly where
  reach : s.floor ≤ s.count
  pop_ok : ∀ v rest, s.pop = .ok (v, rest) ↔
    0 < s.accessible ∧ s.toList = rest.toList ++ [v] ∧ rest.floors = s.floors
  pop_error : ∀ e, s.pop = .error e ↔ s.accessible = 0 ∧ s.Lacks e
  peek_ok : ∀ offset v, s.peek offset = .ok v ↔
    offset < s.accessible ∧ s.toList.reverse[offset]? = some v
  peek_error : ∀ offset e, s.peek offset = .error e ↔ s.accessible ≤ offset ∧ s.Lacks e
  popUntil_none : ∀ wanted, s.popUntil wanted = none ↔
    ∀ v ∈ s.toList.drop s.floor, wanted v = false
  popUntil_some : ∀ wanted above rest, s.popUntil wanted = some (above, rest) ↔
    ∃ v, s.Splits wanted v above rest
  /-- Nothing has changed where nothing was taken. -/
  kept : (s.accessible = 0 → s.after .pop = s) ∧ (∀ offset, s.after (.peek offset) = s) ∧
    ∀ wanted, s.popUntil wanted = none → s.after (.popUntil wanted) = s
  below : ∀ use, use ≠ .clear → (s.after use).toList.take s.floor = s.toList.take s.floor
  allow_set : ∀ height ∈ s.floors, ∃ later earlier, s.floors = later ++ height :: earlier ∧
    s.allow height = ⟨s.items, later ++ earlier⟩
  allow_other : ∀ height, height ∉ s.floors → s.allow height = s

/-- Whatever is done to an empty stack, its floors stay in order and among the operands, and what
can be had, what is taken and what is left follow from them. -/
theorem lawful_of_uses (uses : List Use) : (uses.foldl after empty).Lawful := by
  have orderly := orderly_empty.foldl_after uses
  generalize uses.foldl after empty = s at orderly ⊢
  exact
    { orderly with
      reach := orderly.floor_le
      pop_ok := fun _ _ => pop_eq_ok_iff
      pop_error := fun _ => pop_eq_error_iff
      peek_ok := fun _ _ => peek_eq_ok_iff
      peek_error := fun _ _ => peek_eq_error_iff
      popUntil_none := fun _ => by rw [popUntil_eq_none_iff, orderly.valuesFrom_floor]
      popUntil_some := fun _ _ _ => popUntil_eq_some_iff
      kept := ⟨after_pop_of_accessible, fun _ => rfl, fun _ none => by simp only [after, none]⟩
      below := fun _ keeps => orderly.take_floor_after keeps
      allow_set := fun _ set => exists_allow set
      allow_other := fun _ other => congrArg (Operands.mk s.items) (List.erase_of_not_mem other) }

/-- Two floors of one height, the lower of three released first, and what is then in reach. -/
example :
    let s := [.push (.int 1), .forbid, .push (.int 2), .forbid, .forbid, .push .nil, .allow 1].foldl
      after empty
    s.floors = [2, 2] ∧ s.accessible = 1 ∧ (s.allow 2).floors = [2] := by
  decide

end Operands

end Catena
