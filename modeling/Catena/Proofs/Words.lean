import Catena.Token.Scan

set_option autoImplicit false

/-!
Words. A word runs up to a delimiter, and which shape it has is a matter of the word alone, whatever
stands after the delimiter; only a colon right after it makes another thing of it.
-/

namespace Catena

/-- A word of a program. -/
def IsWord (w : List Char) : Prop := w ≠ [] ∧ ∀ c ∈ w, isWordChar c = true

instance (w : List Char) : Decidable (IsWord w) :=
  decidable_of_iff ((!w.isEmpty && w.all isWordChar) = true) (by simp [IsWord])

/-- Nothing that could belong to a word before it. -/
def EndsWord (rest : List Char) : Prop := atBoundary rest = true ∧ rest.head? ≠ some ':'

instance (rest : List Char) : Decidable (EndsWord rest) := inferInstanceAs (Decidable (_ ∧ _))

theorem endsWord_nil : EndsWord [] := by decide

theorem endsWord_cons {c : Char} (rest : List Char) (delimiter : isDelimiter c = true)
    (other : c ≠ ':') : EndsWord (c :: rest) :=
  ⟨delimiter, by simpa using other⟩

def delimiters : List Char :=
  [' ', '\t', '\r', '\n', ',', '[', ']', '{', '}', '(', ')', '"', '\'', ':', '#']

theorem isDelimiter_iff {c : Char} : isDelimiter c = true ↔ c ∈ delimiters := by
  simp [isDelimiter, isBlank, delimiters, or_assoc]

theorem isWordChar_iff {c : Char} : isWordChar c = true ↔ c ∉ delimiters := by
  rw [← isDelimiter_iff, isWordChar]
  simp

theorem isWordChar_of_isDigit {c : Char} (digit : c.isDigit = true) : isWordChar c = true := by
  rw [isWordChar_iff]
  intro delimiter
  have none : delimiters.all (fun c => !c.isDigit) = true := by decide
  simpa [digit] using List.all_eq_true.1 none c delimiter

namespace Shape

/-- More text after what is left. -/
abbrev followed (rest : List Char) : List Char × List Char → List Char × List Char :=
  fun found => (found.1, found.2 ++ rest)

/-- A rule that does not look past the delimiter after a word. -/
def Local (rule? : List Char → Option (List Char × List Char)) : Prop :=
  ∀ cs rest, atBoundary rest = true → rule? (cs ++ rest) = (rule? cs).map (followed rest)

theorem atBoundary_append {rest : List Char} (ends : atBoundary rest = true) (cs : List Char) :
    atBoundary (cs ++ rest) = atBoundary cs := by
  cases cs with
  | nil => exact ends
  | cons => rfl

theorem run?_local {inClass : Char → Bool} (words : ∀ c, inClass c = true → isWordChar c = true) :
    Local (run? inClass) := by
  intro cs rest ends
  have parts : (cs ++ rest).takeWhile inClass = cs.takeWhile inClass ∧
      (cs ++ rest).dropWhile inClass = cs.dropWhile inClass ++ rest := by
    induction cs with
    | nil =>
      cases rest with
      | nil => exact ⟨rfl, rfl⟩
      | cons c rest =>
        have other : ¬ inClass c = true := fun inside =>
          isWordChar_iff.1 (words c inside) (isDelimiter_iff.1 ends)
        exact ⟨List.takeWhile_cons_of_neg other, List.dropWhile_cons_of_neg other⟩
    | cons c cs ih =>
      by_cases inside : inClass c = true
      · simpa [inside] using ih
      · simp [inside]
  rw [run?, run?, parts.1, parts.2]
  split <;> rfl

theorem word?_local : Local word? := run?_local fun _ => id

theorem digits?_local : Local digits? := run?_local fun _ => isWordChar_of_isDigit

theorem unsignedInt?_local : Local unsignedInt? := by
  intro cs rest ends
  rw [unsignedInt?, unsignedInt?, digits?_local cs rest ends]
  cases digits? cs with
  | none => rfl
  | some found =>
    obtain ⟨digits, left⟩ := found
    simp only [Option.map_some, atBoundary_append ends]
    split <;> rfl

theorem unsignedFloat?_local : Local unsignedFloat? := by
  intro cs rest ends
  rw [unsignedFloat?, unsignedFloat?, digits?_local cs rest ends]
  cases digits? cs with
  | none => rfl
  | some found =>
    obtain ⟨whole, left⟩ := found
    cases left with
    | nil =>
      -- A point is no delimiter, so none can follow.
      cases rest with
      | nil => rfl
      | cons c rest =>
        have other : c ≠ '.' := by
          rintro rfl
          cases ends
        simp [other]
    | cons c left =>
      by_cases point : c = '.'
      · subst point
        simp only [Option.map_some, followed, List.cons_append, digits?_local left rest ends]
        cases digits? left with
        | none => rfl
        | some found =>
          obtain ⟨fraction, left⟩ := found
          simp only [Option.map_some, atBoundary_append ends]
          split <;> rfl
      · simp [point]

theorem signed?_of_head {unsigned? : List Char → Option (List Char × List Char)} {cs : List Char}
    (other : cs.head? ≠ some '-') : signed? unsigned? cs = unsigned? cs := by
  rw [signed?]
  rintro tail rfl
  exact other rfl

theorem signed?_local {unsigned? : List Char → Option (List Char × List Char)}
    (unsigned : Local unsigned?) : Local (signed? unsigned?) := by
  intro cs rest ends
  by_cases minus : cs.head? = some '-'
  · obtain ⟨tail, rfl⟩ := List.head?_eq_some_iff.1 minus
    simp only [List.cons_append, signed?, unsigned tail rest ends, Option.map_map]
    rfl
  · have minus' : (cs ++ rest).head? ≠ some '-' := by
      cases cs with
      | cons => exact minus
      | nil =>
        intro minus
        obtain ⟨tail, rfl⟩ := List.head?_eq_some_iff.1 minus
        cases ends
    rw [signed?_of_head minus, signed?_of_head minus', unsigned cs rest ends]

theorem keyword?_local {word : List Char} (chars : word.all isWordChar = true) :
    Local (keyword? word) := by
  intro cs rest ends
  have same : word.isPrefixOf (cs ++ rest) = word.isPrefixOf cs := by
    induction word generalizing cs with
    | nil => simp
    | cons c word ih =>
      rw [List.all_cons, Bool.and_eq_true] at chars
      obtain ⟨char, chars⟩ := chars
      cases cs with
      | cons d cs => simp [List.isPrefixOf, ih chars]
      | nil =>
        cases rest with
        | nil => rfl
        | cons d rest =>
          have other : c ≠ d := by
            rintro rfl
            exact isWordChar_iff.1 char (isDelimiter_iff.1 ends)
          simp [List.isPrefixOf, other]
  rw [keyword?, keyword?, same]
  cases starts : word.isPrefixOf cs with
  | false => rfl
  | true =>
    obtain ⟨tail, rfl⟩ := List.isPrefixOf_iff_prefix.1 starts
    simp only [List.append_assoc, List.drop_left, Bool.true_and, atBoundary_append ends]
    split <;> rfl

theorem marked?_local {mark : Char} {rule? : List Char → Option (List Char × List Char)}
    (rule : Local rule?) {w rest : List Char} (nonempty : w ≠ []) (ends : atBoundary rest = true) :
    marked? mark rule? (w ++ rest) = (marked? mark rule? w).map (followed rest) := by
  obtain ⟨c, cs, rfl⟩ := List.exists_cons_of_ne_nil nonempty
  rw [List.cons_append, marked?, marked?]
  split
  · rw [rule cs rest ends, Option.map_map, Option.map_map]
    rfl
  · rfl

theorem one?_local {mark : Char} {w : List Char} (nonempty : w ≠ []) (rest : List Char) :
    one? mark (w ++ rest) = (one? mark w).map (followed rest) := by
  obtain ⟨c, cs, rfl⟩ := List.exists_cons_of_ne_nil nonempty
  rw [List.cons_append, one?, one?]
  split <;> rfl

theorem run?_of_all {p : Char → Bool} {cs : List Char} (nonempty : cs ≠ [])
    (all : ∀ c ∈ cs, p c = true) : run? p cs = some (cs, []) := by
  have taken : (cs ++ []).takeWhile p = cs ++ [].takeWhile p := List.takeWhile_append_of_pos all
  have left : (cs ++ []).dropWhile p = [].dropWhile p := List.dropWhile_append_of_pos all
  simp only [List.append_nil, List.takeWhile_nil, List.dropWhile_nil] at taken left
  rw [run?, taken, left, if_neg (by simpa using nonempty)]

section

variable {w rest : List Char}

section

variable (word : IsWord w) (ends : EndsWord rest)
include word ends

theorem word?_of_isWord : word? (w ++ rest) = some (w, rest) := by
  have whole : word? w = some (w, []) := run?_of_all word.1 word.2
  rw [word?_local w rest ends.1, whole]
  rfl

theorem definition?_of_isWord : definition? (w ++ rest) = none := by
  rw [definition?, word?_of_isWord word ends]
  cases rest with
  | nil => rfl
  | cons c rest =>
    have other : c ≠ ':' := by simpa using ends.2
    simp [other]

/-- The shapes of a word are the same wherever it stands. -/
theorem matches?_append (shape : Shape) :
    shape.matches? (w ++ rest) = (shape.matches? w).map (followed rest) := by
  have keyword (text : List Char) (chars : text.all isWordChar = true) :
      keyword? text (w ++ rest) = (keyword? text w).map (followed rest) :=
    keyword?_local chars w rest ends.1
  cases shape with
  | float => exact signed?_local unsignedFloat?_local w rest ends.1
  | int => exact signed?_local unsignedInt?_local w rest ends.1
  | string =>
    obtain ⟨c, cs, rfl⟩ := List.exists_cons_of_ne_nil word.1
    have other : c ≠ '"' := by
      rintro rfl
      cases (List.forall_mem_cons.1 word.2).1
    simp [matches?, marked?, other]
  | boolean =>
    simp only [matches?, keyword "true".toList (by decide), keyword "false".toList (by decide)]
    cases keyword? "true".toList w <;> rfl
  | nil => exact keyword _ (by decide)
  | arrow => exact keyword _ (by decide)
  | opening bracket => exact one?_local word.1 rest
  | closing bracket => exact one?_local word.1 rest
  | symbol => exact marked?_local word?_local word.1 ends.1
  | typeName => exact marked?_local word?_local word.1 ends.1
  | definition =>
    have alone := definition?_of_isWord word endsWord_nil
    rw [List.append_nil] at alone
    rw [matches?, definition?_of_isWord word ends, alone]
    rfl
  | name => exact word?_local w rest ends.1

/-- What a word is does not depend on what follows it. -/
theorem first?_append :
    first? (w ++ rest) =
      (first? w).map fun found => (found.1, found.2.1, found.2.2 ++ rest) := by
  simp only [first?, matches?_append word ends, List.map_findSome?]
  congr 1
  funext shape
  simp [Function.comp_def]

end

end

theorem first?_opening (bracket : Bracket) (rest : List Char) :
    first? (bracket.opening :: rest) = some (.opening bracket, [bracket.opening], rest) := by
  cases bracket <;> rfl

theorem first?_closing (bracket : Bracket) (rest : List Char) :
    first? (bracket.closing :: rest) = some (.closing bracket, [bracket.closing], rest) := by
  cases bracket <;> rfl

/-- A shape is found if those that are tried before it do not match. -/
theorem first?_of_earlier (earlier : List Shape) {later : List Shape} {shape : Shape}
    {cs text rest : List Char} (order : all = earlier ++ shape :: later)
    (others : ∀ s ∈ earlier, s.matches? cs = none)
    (found : shape.matches? cs = some (text, rest)) : first? cs = some (shape, text, rest) := by
  rw [first?, List.findSome?_eq_some_iff]
  refine ⟨earlier, shape, later, order, by rw [found]; rfl, fun s member => ?_⟩
  rw [others s member]
  rfl

theorem marked?_eq_some (mark : Char) {rule? : List Char → Option (List Char × List Char)}
    {cs text rest : List Char} (found : rule? cs = some (text, rest)) :
    marked? mark rule? (mark :: cs) = some (mark :: text, rest) := by
  rw [marked?, if_pos rfl, found]
  rfl

theorem first?_string {cs text rest : List Char} (quoted : quoted? cs = some (text, rest)) :
    first? ('"' :: cs) = some (.string, '"' :: text, rest) := by
  refine first?_of_earlier [.float, .int] rfl ?_
    (marked?_eq_some '"' quoted)
  repeat refine List.forall_mem_cons.2 ⟨rfl, ?_⟩
  exact List.forall_mem_nil _

theorem first?_symbol {w rest : List Char} (word : IsWord w) (ends : EndsWord rest) :
    first? ('\'' :: (w ++ rest)) = some (.symbol, '\'' :: w, rest) := by
  refine first?_of_earlier (all.take 12) rfl ?_
    (marked?_eq_some '\'' (word?_of_isWord word ends))
  repeat refine List.forall_mem_cons.2 ⟨rfl, ?_⟩
  exact List.forall_mem_nil _

theorem first?_typeName {w rest : List Char} (word : IsWord w) (ends : EndsWord rest) :
    first? (':' :: (w ++ rest)) = some (.typeName, ':' :: w, rest) := by
  refine first?_of_earlier (all.take 13) rfl ?_
    (marked?_eq_some ':' (word?_of_isWord word ends))
  repeat refine List.forall_mem_cons.2 ⟨rfl, ?_⟩
  exact List.forall_mem_nil _

/-- No token begins with a blank or a comment. -/
theorem gap_of_first? {cs : List Char} {found : Shape × List Char × List Char}
    (first : first? cs = some found) : gap false cs = ([], cs) := by
  cases cs with
  | nil => rfl
  | cons c cs =>
    rw [gap, if_neg]
    intro skipped
    have blank : c ∈ [' ', '\t', '\r', '\n', ',', '#'] := by
      simpa [isBlank, or_assoc] using skipped
    have none : first? (c :: cs) = none := by
      simp only [List.mem_cons, List.not_mem_nil, or_false] at blank
      rcases blank with rfl | rfl | rfl | rfl | rfl | rfl <;> rfl
    cases none.symm.trans first

end Shape

/-! ### Numerals -/

theorem Number.ofDigits_toDigits (n : Nat) : ofDigits (Nat.toDigits 10 n) = n := by
  induction n using Nat.strongRecOn with
  | ind n ih =>
    have digit {d : Nat} (lt : d < 10) : d.digitChar.toNat - '0'.toNat = d := by
      rw [Nat.toNat_digitChar_of_lt_ten lt]
      exact Nat.add_sub_cancel_left 48 d
    rw [Nat.toDigits_eq_if (by decide)]
    split
    · next lt =>
      rw [ofDigits, List.foldl_cons, List.foldl_nil, digit lt]
      omega
    · have higher : ofDigits (Nat.toDigits 10 (n / 10)) = n / 10 := ih (n / 10) (by omega)
      rw [ofDigits] at higher ⊢
      rw [List.foldl_append, higher, List.foldl_cons, List.foldl_nil, digit (by omega)]
      omega

/-- The digits of a number, after a minus sign if it is negative. -/
theorem toList_toString_int (n : Int) :
    (toString n).toList =
      if 0 ≤ n then Nat.toDigits 10 n.toNat else '-' :: Nat.toDigits 10 (-n).toNat := by
  rw [Int.toString_eq_repr, Int.repr_eq_if]
  split <;> simp [Nat.repr_eq_ofList_toDigits]

theorem isDigit_of_mem_toDigits {n : Nat} : ∀ c ∈ Nat.toDigits 10 n, c.isDigit = true :=
  fun _ member => Nat.isDigit_of_mem_toDigits (by decide) (by decide) member

theorem isWord_toString_int (n : Int) : IsWord (toString n).toList := by
  have digits (n : Nat) : ∀ c ∈ Nat.toDigits 10 n, isWordChar c = true :=
    fun c member => isWordChar_of_isDigit (isDigit_of_mem_toDigits c member)
  rw [toList_toString_int]
  split
  · exact ⟨Nat.toDigits_ne_nil, digits _⟩
  · exact ⟨List.cons_ne_nil _ _, List.forall_mem_cons.2 ⟨by decide, digits _⟩⟩

theorem Number.word?_toString (n : Int64) : word? (toString n.toInt).toList = some n := by
  have value : ofNumeral (toString n.toInt).toList = n.toInt := by
    rw [toList_toString_int]
    split
    · next positive =>
      rw [ofNumeral, ofDigits_toDigits]
      · omega
      · intro digits minus
        cases isDigit_of_mem_toDigits '-' (minus ▸ List.mem_cons_self)
    · rw [ofNumeral, ofDigits_toDigits]
      omega
  have fits : FitsWord n.toInt := ⟨n.le_toInt, n.toInt_lt⟩
  rw [word?, value, ofInt?, if_pos fits, Int64.ofInt_toInt]

theorem Shape.digits?_toDigits (n : Nat) :
    digits? (Nat.toDigits 10 n) = some (Nat.toDigits 10 n, []) :=
  run?_of_all Nat.toDigits_ne_nil isDigit_of_mem_toDigits

theorem Shape.first?_toString_int (n : Int) :
    first? (toString n).toList = some (.int, (toString n).toList, []) := by
  have whole (n : Nat) : unsignedInt? (Nat.toDigits 10 n) = some (Nat.toDigits 10 n, []) := by
    simp [unsignedInt?, digits?_toDigits, atBoundary]
  have point (n : Nat) : unsignedFloat? (Nat.toDigits 10 n) = none := by
    simp [unsignedFloat?, digits?_toDigits]
  have unsigned (n : Nat) : (Nat.toDigits 10 n).head? ≠ some '-' := fun minus => by
    cases isDigit_of_mem_toDigits '-' (List.mem_of_mem_head? minus)
  rw [toList_toString_int]
  split
  · refine first?_of_earlier [.float] rfl (List.forall_mem_singleton.2 ?_) ?_
    · rw [matches?, signed?_of_head (unsigned _), point]
    · rw [matches?, signed?_of_head (unsigned _), whole]
  · refine first?_of_earlier [.float] rfl (List.forall_mem_singleton.2 ?_) ?_
    · rw [matches?, signed?, point]
      rfl
    · rw [matches?, signed?, whole]
      rfl

end Catena
