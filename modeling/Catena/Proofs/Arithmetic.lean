import Catena.Proofs.Accessors

set_option autoImplicit false

/-!
Arithmetic on integers is exact or an error. The operators compute with words, but no result is ever
wrapped around: what stands in the place of the operands is the integer that mathematics asks for,
and where this is no word, or there is none, the operands are gone and an error is raised.
-/

namespace Catena

/-! ### Words -/

namespace Number

variable {n : Int} {word : Int64}

/-- The integers that are words. -/
def InRange (n : Int) : Prop := Int64.minValue.toInt ≤ n ∧ n ≤ Int64.maxValue.toInt

instance (n : Int) : Decidable (InRange n) := inferInstanceAs (Decidable (_ ∧ _))

theorem inRange_toInt (word : Int64) : InRange word.toInt := by
  rw [InRange, Int64.toInt_minValue, Int64.toInt_maxValue]
  have lower := word.le_toInt
  have upper := word.toInt_lt
  omega

theorem fitsWord_iff : FitsWord n ↔ InRange n := by
  rw [FitsWord, InRange, Int64.toInt_minValue, Int64.toInt_maxValue]
  omega

theorem ofInt?_eq_some_iff : ofInt? n = some word ↔ word.toInt = n := by
  unfold ofInt?
  constructor
  · intro found
    split at found
    · next fits =>
      cases found
      exact Int64.toInt_ofInt_of_le fits.1 fits.2
    · cases found
  · rintro rfl
    rw [if_pos (fitsWord_iff.2 (inRange_toInt word)), Int64.ofInt_toInt]

theorem ofInt?_eq_none_iff : ofInt? n = none ↔ ¬ InRange n := by
  rw [← fitsWord_iff, ofInt?]
  split <;> simp [*]

variable {a b : Int64}

theorem not_inRange_neg_iff : ¬ InRange (-a.toInt) ↔ a = Int64.minValue := by
  have lower := a.le_toInt
  have upper := a.toInt_lt
  rw [← Int64.toInt_inj, InRange, Int64.toInt_minValue, Int64.toInt_maxValue]
  omega

theorem toInt_of_rem? (found : rem? a b = some word) : word.toInt = a.toInt.tmod b.toInt := by
  unfold rem? at found
  split at found
  · exact ofInt?_eq_some_iff.1 found
  · cases found

section

variable (divisor : b ≠ 0)
include divisor

/-- A quotient is a word, but for the lowest word divided by -1. -/
theorem inRange_tdiv_iff :
    InRange (a.toInt.tdiv b.toInt) ↔ ¬ (a = Int64.minValue ∧ b = -1) := by
  have lower := a.le_toInt
  have upper := a.toInt_lt
  have minus : (-1 : Int64).toInt = -1 := rfl
  rw [Ne, ← Int64.toInt_inj, Int64.toInt_zero] at divisor
  rw [← Int64.toInt_inj, ← Int64.toInt_inj, InRange, Int64.toInt_minValue, Int64.toInt_maxValue,
    minus]
  -- A divisor other than 1 and -1 at least halves the dividend.
  rcases (by omega : b.toInt = 1 ∨ b.toInt = -1 ∨ 2 ≤ b.toInt.natAbs) with unit | unit | wide
  · rw [unit, Int.tdiv_one]
    omega
  · rw [unit, Int.tdiv_neg, Int.tdiv_one]
    omega
  · have size : (a.toInt.tdiv b.toInt).natAbs = a.toInt.natAbs / b.toInt.natAbs :=
      Int.natAbs_tdiv a.toInt b.toInt
    have half : a.toInt.natAbs / b.toInt.natAbs ≤ a.toInt.natAbs / 2 :=
      Nat.div_le_div_left wide (by decide)
    omega

theorem natAbs_tmod_lt : (a.toInt.tmod b.toInt).natAbs < b.toInt.natAbs := by
  rw [Ne, ← Int64.toInt_inj, Int64.toInt_zero] at divisor
  rw [Int.natAbs_tmod]
  exact Nat.mod_lt _ (by omega)

theorem inRange_tmod : InRange (a.toInt.tmod b.toInt) := by
  have smaller := natAbs_tmod_lt (a := a) divisor
  have lower := b.le_toInt
  have upper := b.toInt_lt
  rw [InRange, Int64.toInt_minValue, Int64.toInt_maxValue]
  omega

theorem div?_eq_none_iff : div? a b = none ↔ a = Int64.minValue ∧ b = -1 := by
  rw [div?, ofInt?_eq_none_iff, inRange_tdiv_iff divisor, not_not]

theorem rem?_eq_none_iff : rem? a b = none ↔ a = Int64.minValue ∧ b = -1 := by
  rw [← div?_eq_none_iff divisor, rem?]
  cases div? a b with
  | none => rfl
  | some _ => simp [ofInt?_eq_none_iff, inRange_tmod divisor]

end

/-- A word, or the error of the operator that should have found one. -/
def orOverflow (operator : String) : Option Int64 → Except RuntimeError Int64
  | some word => .ok word
  | none => .error (.overflow operator)

end Number

/-! ### Running an operator -/

namespace Machine

/-- How an operator ends that has left `rest` of the machine: it pushes an integer or raises an
error. -/
def ended (rest : Machine) : Except RuntimeError Int64 → EStateM.Result Signal Machine Unit
  | .ok word => .ok () (rest.given [.int word])
  | .error e => .error (.error e) rest

theorem ended_injective (rest : Machine) : Function.Injective rest.ended := by
  rintro (e | word) (e' | word') same
  · cases same
    rfl
  · cases same
  · cases same
  · injection same with _ same
    have items := congrArg (fun m => m.operands.items.toList) same
    injection items with top _
    cases top
    rfl

/-- An operator takes its operands, which stand on `X`, and leaves an integer in their place or
raises an error. Nothing else changes. -/
def ResultsIn (m : Machine) (p : Primitive) (taken : Nat) (X : List Value)
    (outcome : Except RuntimeError Int) : Prop :=
  ∃ (rest : Machine) (found : Except RuntimeError Int64),
    m.Spends taken rest ∧ rest.operands.toList = X ∧ found.map Int64.toInt = outcome ∧
    Exec.invokeOperation (.builtin ⟨p.name, .primitive p⟩) m = rest.ended found

/-- The operator finds `r` if that is a word, and overflows if it is none. -/
def Exactly (m : Machine) (p : Primitive) (taken : Nat) (X : List Value) (r : Int) : Prop :=
  (m.ResultsIn p taken X (.ok r) ↔ Number.InRange r) ∧
  (m.ResultsIn p taken X (.error (.overflow p.name)) ↔ ¬ Number.InRange r)

variable {m : Machine} {p : Primitive} {taken : Nat} {X : List Value}

theorem ResultsIn.iff_eq {x y : Except RuntimeError Int} (result : m.ResultsIn p taken X x) :
    m.ResultsIn p taken X y ↔ x = y := by
  constructor
  · rintro ⟨rest', found', spent', _, rfl, ran'⟩
    obtain ⟨rest, found, spent, _, rfl, ran⟩ := result
    obtain rfl : rest' = rest := spent'.machine.trans spent.machine.symm
    rw [rest'.ended_injective (ran.symm.trans ran')]
  · rintro rfl
    exact result

theorem exactly_of_resultsIn {r : Int} (result : m.ResultsIn p taken X
    ((Number.orOverflow p.name (Number.ofInt? r)).map Int64.toInt)) : m.Exactly p taken X r := by
  rw [Exactly, result.iff_eq, result.iff_eq]
  cases found : Number.ofInt? r with
  | none =>
    have outside := Number.ofInt?_eq_none_iff.1 found
    simp [Number.orOverflow, Except.map, outside]
  | some word =>
    obtain rfl := Number.ofInt?_eq_some_iff.1 found
    simp [Number.orOverflow, Except.map, Number.inRange_toInt]

end Machine

namespace Exec

variable {m : Machine} {X : List Value}

theorem exists_pop {v : Value} (operands : m.operands.toList = X ++ [v])
    (accessible : 1 ≤ m.operands.accessible) :
    ∃ rest : Machine, pop m = .ok v rest ∧ m.Spends 1 rest ∧ rest.operands.toList = X := by
  have top : m.operands.items.toList.head? = some v := by
    rw [Operands.toList_eq_append_iff.1 operands]
    rfl
  have spent : m.Spends 1 { m with operands := m.operands.spend 1 } := ⟨accessible, rfl⟩
  exact ⟨_, pop_eq_ok_iff.2 ⟨top, spent⟩, spent, Operands.toList_spend operands⟩

/-- An operator that computes a word from one operand. -/
theorem resultsIn_unary {p : Primitive} {f : Value → Except RuntimeError Value} {v : Value}
    {found : Except RuntimeError Int64} (does : primitive p = plain (unary f))
    (computes : f v = found.map .int) (operands : m.operands.toList = X ++ [v])
    (accessible : 1 ≤ m.operands.accessible) :
    m.ResultsIn p 1 X (found.map Int64.toInt) := by
  obtain ⟨rest, popped, spent, below⟩ := exists_pop operands accessible
  refine ⟨rest, found, spent, below, rfl, ?_⟩
  rw [invokeOperation_of_plain (o := .builtin ⟨p.name, .primitive p⟩) does]
  simp only [unary, Bind.bind, EStateM.bind, popped, computes]
  cases found <;> rfl

/-- An operator that computes a word from two operands. -/
theorem resultsIn_binary {p : Primitive} {f : Value → Value → Except RuntimeError Value}
    {v w : Value} {found : Except RuntimeError Int64} (does : primitive p = plain (binary f))
    (computes : f v w = found.map .int) (operands : m.operands.toList = X ++ [v, w])
    (accessible : 2 ≤ m.operands.accessible) :
    m.ResultsIn p 2 X (found.map Int64.toInt) := by
  rw [List.append_cons] at operands
  obtain ⟨mid, popped, spent, middle⟩ := exists_pop operands (by omega)
  have more : 1 ≤ mid.operands.accessible := by
    rw [spent.machine, Operands.accessible_spend]
    omega
  obtain ⟨rest, popped', spent', below⟩ := exists_pop middle more
  refine ⟨rest, found, spent.trans spent', below, rfl, ?_⟩
  rw [invokeOperation_of_plain (o := .builtin ⟨p.name, .primitive p⟩) does]
  simp only [binary, Bind.bind, EStateM.bind, popped, popped', computes]
  cases found <;> rfl

end Exec

section

variable {m : Machine} {X : List Value} {a b : Int64}

theorem Machine.exactly_neg (operands : m.operands.toList = X ++ [.int a])
    (accessible : 1 ≤ m.operands.accessible) : m.Exactly .neg 1 X (-a.toInt) := by
  refine exactly_of_resultsIn (Exec.resultsIn_unary rfl ?_ operands accessible)
  rw [negate, Number.neg?]
  cases Number.ofInt? (-a.toInt) <;> rfl

theorem ArithmeticOp.onInts_eq_orOverflow {op : ArithmeticOp}
    (defined : op.divides = false ∨ b ≠ 0) :
    op.onInts a b = Number.orOverflow op.name (op.onWords? a b) := by
  have nonzero : (op.divides && b == 0) = false := by
    rcases defined with defined | defined
    · rw [defined, Bool.false_and]
    · rw [beq_eq_false_iff_ne.2 defined, Bool.and_false]
  rw [onInts, nonzero]
  cases op.onWords? a b <;> rfl

theorem ArithmeticOp.onInts_of_divides {op : ArithmeticOp} (divides : op.divides = true) :
    op.onInts a 0 = .error .divisionByZero := by
  rw [onInts, divides]
  rfl

theorem ArithmeticOp.onWords?_eq_none_iff {op : ArithmeticOp} (divides : op.divides = true)
    (divisor : b ≠ 0) : op.onWords? a b = none ↔ a = Int64.minValue ∧ b = -1 := by
  cases op with
  | div => exact Number.div?_eq_none_iff divisor
  | rem => exact Number.rem?_eq_none_iff divisor
  | add | sub | mul => cases divides

theorem ArithmeticOp.overflow_ne_divisionByZero (op : ArithmeticOp) :
    RuntimeError.overflow op.name ≠ .divisionByZero := by
  cases op <;> decide

namespace Machine

variable {op : ArithmeticOp} (operands : m.operands.toList = X ++ [.int a, .int b])
  (accessible : 2 ≤ m.operands.accessible)
include operands accessible

theorem resultsIn_arithmetic (op : ArithmeticOp) :
    m.ResultsIn (.arithmetic op) 2 X ((op.onInts a b).map Int64.toInt) :=
  Exec.resultsIn_binary rfl rfl operands accessible

theorem exactly_arithmetic {r : Int} (defined : op.divides = false)
    (words : op.onWords? a b = Number.ofInt? r) : m.Exactly (.arithmetic op) 2 X r := by
  have result := resultsIn_arithmetic operands accessible op
  rw [ArithmeticOp.onInts_eq_orOverflow (.inl defined), words] at result
  exact exactly_of_resultsIn result

theorem resultsIn_divisionByZero_iff (divides : op.divides = true) :
    m.ResultsIn (.arithmetic op) 2 X (.error .divisionByZero) ↔ b = 0 := by
  rw [(resultsIn_arithmetic operands accessible op).iff_eq]
  by_cases divisor : b = 0
  · rw [divisor, ArithmeticOp.onInts_of_divides divides]
    exact iff_of_true rfl rfl
  · rw [ArithmeticOp.onInts_eq_orOverflow (.inr divisor)]
    cases op.onWords? a b with
    | none => simpa [Number.orOverflow, Except.map, divisor] using op.overflow_ne_divisionByZero
    | some word => simp [Number.orOverflow, Except.map, divisor]

theorem resultsIn_overflow_iff (divides : op.divides = true) :
    m.ResultsIn (.arithmetic op) 2 X (.error (.overflow op.name)) ↔
      a = Int64.minValue ∧ b = -1 := by
  rw [(resultsIn_arithmetic operands accessible op).iff_eq]
  by_cases divisor : b = 0
  · rw [divisor, ArithmeticOp.onInts_of_divides divides]
    refine iff_of_false (fun same => ?_) (fun both => absurd both.2 (by decide))
    injection same with same
    exact op.overflow_ne_divisionByZero same.symm
  · rw [ArithmeticOp.onInts_eq_orOverflow (.inr divisor),
      ← ArithmeticOp.onWords?_eq_none_iff divides divisor]
    cases op.onWords? a b <;> simp [Number.orOverflow, Except.map]

theorem resultsIn_word {word : Int64} (divisor : b ≠ 0) (found : op.onWords? a b = some word) :
    m.ResultsIn (.arithmetic op) 2 X (.ok word.toInt) := by
  have result := resultsIn_arithmetic operands accessible op
  rw [ArithmeticOp.onInts_eq_orOverflow (.inr divisor), found] at result
  exact result

theorem exists_quotient (divisor : b ≠ 0) (fits : ¬ (a = Int64.minValue ∧ b = -1)) : ∃ q r : Int,
    m.ResultsIn (.arithmetic .div) 2 X (.ok q) ∧ m.ResultsIn (.arithmetic .rem) 2 X (.ok r) ∧
    q = a.toInt.tdiv b.toInt ∧ a.toInt = q * b.toInt + r ∧
    r.natAbs < b.toInt.natAbs ∧ (r = 0 ∨ r.sign = a.toInt.sign) := by
  obtain ⟨q, quotient⟩ := Option.ne_none_iff_exists'.1
    (mt (Number.div?_eq_none_iff divisor).1 fits)
  obtain ⟨r, remainder⟩ := Option.ne_none_iff_exists'.1
    (mt (Number.rem?_eq_none_iff divisor).1 fits)
  refine ⟨q.toInt, r.toInt, resultsIn_word operands accessible divisor quotient,
    resultsIn_word operands accessible divisor remainder, ?_⟩
  rw [Number.ofInt?_eq_some_iff.1 quotient, Number.toInt_of_rem? remainder]
  refine ⟨rfl, (Int.tdiv_mul_add_tmod _ _).symm, Number.natAbs_tmod_lt divisor, ?_⟩
  rw [← Int.sign_eq_zero_iff_zero, Int.sign_tmod]
  split
  · exact .inl rfl
  · exact .inr rfl

end Machine

end

/-- On two accessible integers, sum, difference and product are found exactly or overflow. Quotient
and remainder fail just when the divisor is zero or the quotient is no word; otherwise the quotient
is cut off toward zero, the remainder is what it leaves over, smaller than the divisor and of the
sign of the dividend. A number is negated unless it is the lowest one. In each case nothing below
the operands is touched. -/
theorem integers_exact_or_error (m : Machine) (X : List Value) :
    (∀ a b : Int64, m.operands.toList = X ++ [.int a, .int b] → 2 ≤ m.operands.accessible →
      m.Exactly (.arithmetic .add) 2 X (a.toInt + b.toInt) ∧
      m.Exactly (.arithmetic .sub) 2 X (a.toInt - b.toInt) ∧
      m.Exactly (.arithmetic .mul) 2 X (a.toInt * b.toInt) ∧
      (∀ op : ArithmeticOp, op = .div ∨ op = .rem →
        (m.ResultsIn (.arithmetic op) 2 X (.error .divisionByZero) ↔ b = 0) ∧
        (m.ResultsIn (.arithmetic op) 2 X (.error (.overflow op.name)) ↔
          a = Int64.minValue ∧ b = -1)) ∧
      (b ≠ 0 → ¬ (a = Int64.minValue ∧ b = -1) → ∃ q r : Int,
        m.ResultsIn (.arithmetic .div) 2 X (.ok q) ∧ m.ResultsIn (.arithmetic .rem) 2 X (.ok r) ∧
        q = a.toInt.tdiv b.toInt ∧ a.toInt = q * b.toInt + r ∧
        r.natAbs < b.toInt.natAbs ∧ (r = 0 ∨ r.sign = a.toInt.sign))) ∧
    ∀ n : Int64, m.operands.toList = X ++ [.int n] → 1 ≤ m.operands.accessible →
      m.Exactly .neg 1 X (-n.toInt) ∧
      (m.ResultsIn .neg 1 X (.error (.overflow "neg")) ↔ n = Int64.minValue) := by
  refine ⟨fun a b operands accessible => ⟨?_, ?_, ?_, fun op divides => ?_, ?_⟩,
    fun n operands accessible => ?_⟩
  · exact Machine.exactly_arithmetic operands accessible rfl rfl
  · exact Machine.exactly_arithmetic operands accessible rfl rfl
  · exact Machine.exactly_arithmetic operands accessible rfl rfl
  · have divides : op.divides = true := by rcases divides with rfl | rfl <;> rfl
    exact ⟨Machine.resultsIn_divisionByZero_iff operands accessible divides,
      Machine.resultsIn_overflow_iff operands accessible divides⟩
  · exact Machine.exists_quotient operands accessible
  · have exactly := Machine.exactly_neg operands accessible
    exact ⟨exactly, exactly.2.trans Number.not_inRange_neg_iff⟩

/-- The lowest word and -1, above a floor with a text below it. -/
theorem integers_exact_or_error_lowest :
    let m : Machine :=
      { Machine.new .standard with
        operands := ⟨.ofList [.int (-1), .int Int64.minValue, .str "below"], [1]⟩ }
    m.ResultsIn (.arithmetic .sub) 2 [.str "below"] (.ok (-9223372036854775807)) ∧
      m.ResultsIn (.arithmetic .add) 2 [.str "below"] (.error (.overflow "+")) ∧
      m.ResultsIn (.arithmetic .mul) 2 [.str "below"] (.error (.overflow "*")) ∧
      m.ResultsIn (.arithmetic .div) 2 [.str "below"] (.error (.overflow "/")) ∧
      m.ResultsIn (.arithmetic .rem) 2 [.str "below"] (.error (.overflow "%")) ∧
      m.ResultsIn .neg 1 [.str "below", .int Int64.minValue] (.ok 1) := by
  intro m
  obtain ⟨add, sub, mul, divide, _⟩ :=
    (integers_exact_or_error m [.str "below"]).1 Int64.minValue (-1) rfl (by decide)
  have negate := (integers_exact_or_error m [.str "below", .int Int64.minValue]).2 (-1) rfl
    (by decide)
  exact ⟨sub.1.2 (by decide), add.2.2 (by decide), mul.2.2 (by decide),
    (divide .div (.inl rfl)).2.2 ⟨rfl, rfl⟩, (divide .rem (.inr rfl)).2.2 ⟨rfl, rfl⟩,
    negate.1.1.2 (by decide)⟩

end Catena
