import Catena.Proofs.Unrolling

set_option autoImplicit false

/-!
The integers of a range. A range may be wider than any word is high, so the index of an element may
turn negative when it becomes a word, and adding it to the start may wrap around; but both cancel
out. The elements are the integers from the start up to the end, each once and in order.
-/

namespace Catena

namespace Source

variable (start stop : Int64)

theorem coe_length_range :
    ((range start stop).length : Int) = max 0 (stop.toInt - start.toInt) := by
  rw [length, Int.toNat_eq_max, Int.max_comm]

/-- The widest range has one element less than there are words. -/
theorem length_range_lt : (range start stop).length < UInt64.size := by
  have lower := start.le_toInt
  have upper := stop.toInt_lt
  have size : UInt64.size = 18446744073709551616 := rfl
  rw [length]
  omega

variable {start stop} {i j : Nat}

/-- The element at an index: the index is a word without sign that is read as one with a sign, and
the sum wraps around. -/
theorem element_range :
    (range start stop).element i = .int (start + (UInt64.ofNat i).toInt64) := by
  rw [element, UInt64.toInt64_ofNat']

theorem toInt_element_range (inside : i < (range start stop).length) :
    (start + (UInt64.ofNat i).toInt64).toInt = start.toInt + i := by
  rw [UInt64.toInt64_ofNat', toInt_element inside]

theorem element_range_mem (inside : i < (range start stop).length) :
    start ≤ start + (UInt64.ofNat i).toInt64 ∧ start + (UInt64.ofNat i).toInt64 < stop := by
  rw [Int64.le_iff_toInt_le, Int64.lt_iff_toInt_lt, toInt_element_range inside]
  rw [length] at inside
  omega

theorem element_range_lt (before : i < j) (inside : j < (range start stop).length) :
    start + (UInt64.ofNat i).toInt64 < start + (UInt64.ofNat j).toInt64 := by
  rw [Int64.lt_iff_toInt_lt, toInt_element_range (Nat.lt_trans before inside),
    toInt_element_range inside]
  omega

theorem exists_index {word : Int64} (lower : start ≤ word) (upper : word < stop) :
    ∃ i < (range start stop).length, start + (UInt64.ofNat i).toInt64 = word := by
  rw [Int64.le_iff_toInt_le] at lower
  rw [Int64.lt_iff_toInt_lt] at upper
  have inside : (word.toInt - start.toInt).toNat < (range start stop).length := by
    rw [length]
    omega
  refine ⟨_, inside, Int64.toInt_inj.1 ?_⟩
  rw [toInt_element_range inside]
  omega

end Source

/-- A range has as many elements as there are integers from its start up to its end, which is never
more than a word without sign can count. The element at an index is the integer that the index is
above the start, so it lies in the range, and later elements are greater. No integer of the range is
left out. -/
theorem range_never_wraps (start stop : Int64) :
    ((Source.range start stop).length : Int) = max 0 (stop.toInt - start.toInt) ∧
    (Source.range start stop).length < UInt64.size ∧
    (∀ i < (Source.range start stop).length, ∃ word : Int64,
      (Source.range start stop).element i = .int word ∧ word = start + (UInt64.ofNat i).toInt64 ∧
      word.toInt = start.toInt + i ∧ start ≤ word ∧ word < stop) ∧
    (∀ i j, i < j → j < (Source.range start stop).length → ∃ lower upper : Int64,
      (Source.range start stop).element i = .int lower ∧
      (Source.range start stop).element j = .int upper ∧ lower < upper) ∧
    ∀ word : Int64, start ≤ word → word < stop →
      ∃ i < (Source.range start stop).length, (Source.range start stop).element i = .int word := by
  refine ⟨Source.coe_length_range start stop, Source.length_range_lt start stop,
    fun i inside => ?_, fun i j before inside => ?_, fun word lower upper => ?_⟩
  · exact ⟨_, Source.element_range, rfl, Source.toInt_element_range inside,
      Source.element_range_mem inside⟩
  · exact ⟨_, _, Source.element_range, Source.element_range,
      Source.element_range_lt before inside⟩
  · obtain ⟨i, inside, rfl⟩ := Source.exists_index lower upper
    exact ⟨i, inside, Source.element_range⟩

/-- The widest range, at an index that is negative as a word. -/
theorem range_never_wraps_widest :
    let source := Source.range Int64.minValue Int64.maxValue
    (source.length : Int) = 18446744073709551615 ∧
      (UInt64.ofNat 9223372036854775809).toInt64 < 0 ∧
      ∃ word : Int64, source.element 9223372036854775809 = .int word ∧ word.toInt = 1 := by
  intro source
  obtain ⟨length, _, elements, _⟩ := range_never_wraps Int64.minValue Int64.maxValue
  obtain ⟨word, element, _, value, _⟩ := elements 9223372036854775809 (by decide)
  exact ⟨length, by decide, word, element, value⟩

end Catena
