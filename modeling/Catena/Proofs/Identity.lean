import Catena.Typing
import Catena.Value.Equality
import Mathlib.Data.List.Forall2

set_option autoImplicit false

-- In the mutual inductions most of the theorems only hand the hypothesis on.
set_option linter.unusedSectionVars false

/-!
Values that are the same up to identities. Two machines that do the same work may number their
arrays, quotations and closures differently; `Value.Same p` says that one value becomes the other
when each identity is replaced by the one that `p` pairs it with. Nothing a program can see depends
on the numbers: kinds, types and texts agree, and so does equality as long as `p` is one to one.
-/

namespace Catena

/-- Whether the value holds no identity. -/
def Value.isPlain : Value → Bool
  | .array .. | .quote .. | .closure _ | .op .. => false
  | _ => true

mutual

inductive Value.Same (p : Nat → Nat → Prop) : Value → Value → Prop
  | plain {v} : v.isPlain = true → Value.Same p v v
  | array {i j a b} : p i j → SameAll p a b → Value.Same p (.array i a) (.array j b)
  | quote {i j a b} : p i j → SameAll p a b → Value.Same p (.quote i a) (.quote j b)
  | closure {c d} : Closure.Same p c d → Value.Same p (.closure c) (.closure d)
  | op {o o' origin} : Operation.Same p o o' → Value.Same p (.op o origin) (.op o' origin)

inductive SameAll (p : Nat → Nat → Prop) : List Value → List Value → Prop
  | nil : SameAll p [] []
  | cons {v w a b} : Value.Same p v w → SameAll p a b → SameAll p (v :: a) (w :: b)

inductive Closure.Same (p : Nat → Nat → Prop) : Closure Value → Closure Value → Prop
  | mk {i j name a b signature s t} : p i j → SameAll p a b → Bindings.Same p s t →
      Closure.Same p ⟨i, name, a, signature, s⟩ ⟨j, name, b, signature, t⟩

inductive Operation.Same (p : Nat → Nat → Prop) : Operation Value → Operation Value → Prop
  | builtin {b c} : Builtin.Same p b c → Operation.Same p (.builtin b) (.builtin c)
  | data {d e} : DataOp.Same p d e → Operation.Same p (.data d) (.data e)

inductive Builtin.Same (p : Nat → Nat → Prop) : Builtin Value → Builtin Value → Prop
  | primitive {name q} : Builtin.Same p ⟨name, .primitive q⟩ ⟨name, .primitive q⟩
  | reply {name r s} : Reply.Same p r s → Builtin.Same p ⟨name, .reply r⟩ ⟨name, .reply s⟩
  | await {name a b} : Pending.Same p a b → Builtin.Same p ⟨name, .await a⟩ ⟨name, .await b⟩

inductive DataOp.Same (p : Nat → Nat → Prop) : DataOp Value → DataOp Value → Prop
  | construct {name type fields s t} : Bindings.Same p s t →
      DataOp.Same p ⟨name, .construct type fields s⟩ ⟨name, .construct type fields t⟩
  | isInstance {name type} : DataOp.Same p ⟨name, .isInstance type⟩ ⟨name, .isInstance type⟩
  | isVariant {name variants} :
      DataOp.Same p ⟨name, .isVariant variants⟩ ⟨name, .isVariant variants⟩
  | get {name field} : DataOp.Same p ⟨name, .get field⟩ ⟨name, .get field⟩
  | set {name field s t} : Bindings.Same p s t →
      DataOp.Same p ⟨name, .set field s⟩ ⟨name, .set field t⟩
  | update {name field s t} : Bindings.Same p s t →
      DataOp.Same p ⟨name, .update field s⟩ ⟨name, .update field t⟩

inductive Reply.Same (p : Nat → Nat → Prop) : Reply Value → Reply Value → Prop
  | value {v w} : Value.Same p v w → Reply.Same p (.value v) (.value w)
  | nothing : Reply.Same p .nothing .nothing
  | failure {e} : Reply.Same p (.failure e) (.failure e)

inductive Future.Same (p : Nat → Nat → Prop) : Future Value → Future Value → Prop
  | ready {r s} : Reply.Same p r s → Future.Same p (.ready r) (.ready s)
  | later {milliseconds r s} : Reply.Same p r s →
      Future.Same p (.later milliseconds r) (.later milliseconds s)
  | never : Future.Same p .never .never

inductive Pending.Same (p : Nat → Nat → Prop) : Pending Value → Pending Value → Prop
  | mk {label f g cancel} : Future.Same p f g → Pending.Same p ⟨label, f, cancel⟩ ⟨label, g, cancel⟩

inductive Bindings.Same (p : Nat → Nat → Prop) : Bindings Value → Bindings Value → Prop
  | mk {a b} : SameEntries p a b → Bindings.Same p ⟨a⟩ ⟨b⟩

inductive SameEntries (p : Nat → Nat → Prop) :
    List (String × Value) → List (String × Value) → Prop
  | nil : SameEntries p [] []
  | cons {name v w a b} : Value.Same p v w → SameEntries p a b →
      SameEntries p ((name, v) :: a) ((name, w) :: b)

end

variable {p q : Nat → Nat → Prop}

/-! ### More pairs -/

section

variable (h : ∀ i j, p i j → q i j)
include h

mutual

theorem Value.Same.mono {v w : Value} : v.Same p w → v.Same q w
  | .plain free => .plain free
  | .array ij ab => .array (h _ _ ij) (SameAll.mono ab)
  | .quote ij ab => .quote (h _ _ ij) (SameAll.mono ab)
  | .closure cd => .closure (Closure.Same.mono cd)
  | .op o => .op (Operation.Same.mono o)

theorem SameAll.mono {a b : List Value} : SameAll p a b → SameAll q a b
  | .nil => .nil
  | .cons vw ab => .cons (Value.Same.mono vw) (SameAll.mono ab)

theorem Closure.Same.mono {c d : Closure Value} : c.Same p d → c.Same q d
  | .mk ij ab st => .mk (h _ _ ij) (SameAll.mono ab) (Bindings.Same.mono st)

theorem Operation.Same.mono {o o' : Operation Value} : o.Same p o' → o.Same q o'
  | .builtin bc => .builtin (Builtin.Same.mono bc)
  | .data de => .data (DataOp.Same.mono de)

theorem Builtin.Same.mono {b c : Builtin Value} : b.Same p c → b.Same q c
  | .primitive => .primitive
  | .reply rs => .reply (Reply.Same.mono rs)
  | .await ab => .await (Pending.Same.mono ab)

theorem DataOp.Same.mono {d e : DataOp Value} : d.Same p e → d.Same q e
  | .construct st => .construct (Bindings.Same.mono st)
  | .isInstance => .isInstance
  | .isVariant => .isVariant
  | .get => .get
  | .set st => .set (Bindings.Same.mono st)
  | .update st => .update (Bindings.Same.mono st)

theorem Reply.Same.mono {r s : Reply Value} : r.Same p s → r.Same q s
  | .value vw => .value (Value.Same.mono vw)
  | .nothing => .nothing
  | .failure => .failure

theorem Future.Same.mono {f g : Future Value} : f.Same p g → f.Same q g
  | .ready rs => .ready (Reply.Same.mono rs)
  | .later rs => .later (Reply.Same.mono rs)
  | .never => .never

theorem Pending.Same.mono {a b : Pending Value} : a.Same p b → a.Same q b
  | .mk fg => .mk (Future.Same.mono fg)

theorem Bindings.Same.mono {s t : Bindings Value} : s.Same p t → s.Same q t
  | .mk ab => .mk (SameEntries.mono ab)

theorem SameEntries.mono {a b : List (String × Value)} : SameEntries p a b → SameEntries q a b
  | .nil => .nil
  | .cons vw ab => .cons (Value.Same.mono vw) (SameEntries.mono ab)

end

end

/-! ### One side only -/

section

variable (h : ∀ i j, p i j → q i i)
include h

mutual

theorem Value.Same.left {v w : Value} : v.Same p w → v.Same q v
  | .plain free => .plain free
  | .array ij ab => .array (h _ _ ij) (SameAll.left ab)
  | .quote ij ab => .quote (h _ _ ij) (SameAll.left ab)
  | .closure cd => .closure (Closure.Same.left cd)
  | .op o => .op (Operation.Same.left o)

theorem SameAll.left {a b : List Value} : SameAll p a b → SameAll q a a
  | .nil => .nil
  | .cons vw ab => .cons (Value.Same.left vw) (SameAll.left ab)

theorem Closure.Same.left {c d : Closure Value} : c.Same p d → c.Same q c
  | .mk ij ab st => .mk (h _ _ ij) (SameAll.left ab) (Bindings.Same.left st)

theorem Operation.Same.left {o o' : Operation Value} : o.Same p o' → o.Same q o
  | .builtin bc => .builtin (Builtin.Same.left bc)
  | .data de => .data (DataOp.Same.left de)

theorem Builtin.Same.left {b c : Builtin Value} : b.Same p c → b.Same q b
  | .primitive => .primitive
  | .reply rs => .reply (Reply.Same.left rs)
  | .await ab => .await (Pending.Same.left ab)

theorem DataOp.Same.left {d e : DataOp Value} : d.Same p e → d.Same q d
  | .construct st => .construct (Bindings.Same.left st)
  | .isInstance => .isInstance
  | .isVariant => .isVariant
  | .get => .get
  | .set st => .set (Bindings.Same.left st)
  | .update st => .update (Bindings.Same.left st)

theorem Reply.Same.left {r s : Reply Value} : r.Same p s → r.Same q r
  | .value vw => .value (Value.Same.left vw)
  | .nothing => .nothing
  | .failure => .failure

theorem Future.Same.left {f g : Future Value} : f.Same p g → f.Same q f
  | .ready rs => .ready (Reply.Same.left rs)
  | .later rs => .later (Reply.Same.left rs)
  | .never => .never

theorem Pending.Same.left {a b : Pending Value} : a.Same p b → a.Same q a
  | .mk fg => .mk (Future.Same.left fg)

theorem Bindings.Same.left {s t : Bindings Value} : s.Same p t → s.Same q s
  | .mk ab => .mk (SameEntries.left ab)

theorem SameEntries.left {a b : List (String × Value)} : SameEntries p a b → SameEntries q a a
  | .nil => .nil
  | .cons vw ab => .cons (Value.Same.left vw) (SameEntries.left ab)

end

end

/-! ### Nothing but equal values -/

section

variable (h : ∀ i j, p i j → j = i)
include h

mutual

theorem Value.Same.eq {v w : Value} : v.Same p w → w = v
  | .plain _ => rfl
  | .array ij ab => by rw [h _ _ ij, SameAll.eq ab]
  | .quote ij ab => by rw [h _ _ ij, SameAll.eq ab]
  | .closure cd => by rw [Closure.Same.eq cd]
  | .op o => by rw [Operation.Same.eq o]

theorem SameAll.eq {a b : List Value} : SameAll p a b → b = a
  | .nil => rfl
  | .cons vw ab => by rw [Value.Same.eq vw, SameAll.eq ab]

theorem Closure.Same.eq {c d : Closure Value} : c.Same p d → d = c
  | .mk ij ab st => by rw [h _ _ ij, SameAll.eq ab, Bindings.Same.eq st]

theorem Operation.Same.eq {o o' : Operation Value} : o.Same p o' → o' = o
  | .builtin bc => by rw [Builtin.Same.eq bc]
  | .data de => by rw [DataOp.Same.eq de]

theorem Builtin.Same.eq {b c : Builtin Value} : b.Same p c → c = b
  | .primitive => rfl
  | .reply rs => by rw [Reply.Same.eq rs]
  | .await ab => by rw [Pending.Same.eq ab]

theorem DataOp.Same.eq {d e : DataOp Value} : d.Same p e → e = d
  | .construct st => by rw [Bindings.Same.eq st]
  | .isInstance => rfl
  | .isVariant => rfl
  | .get => rfl
  | .set st => by rw [Bindings.Same.eq st]
  | .update st => by rw [Bindings.Same.eq st]

theorem Reply.Same.eq {r s : Reply Value} : r.Same p s → s = r
  | .value vw => by rw [Value.Same.eq vw]
  | .nothing => rfl
  | .failure => rfl

theorem Future.Same.eq {f g : Future Value} : f.Same p g → g = f
  | .ready rs => by rw [Reply.Same.eq rs]
  | .later rs => by rw [Reply.Same.eq rs]
  | .never => rfl

theorem Pending.Same.eq {a b : Pending Value} : a.Same p b → b = a
  | .mk fg => by rw [Future.Same.eq fg]

theorem Bindings.Same.eq {s t : Bindings Value} : s.Same p t → t = s
  | .mk ab => congrArg Bindings.mk (SameEntries.eq ab)

theorem SameEntries.eq {a b : List (String × Value)} : SameEntries p a b → b = a
  | .nil => rfl
  | .cons vw ab => by rw [Value.Same.eq vw, SameEntries.eq ab]

end

end

/-! ### Every value is the same as itself -/

section

variable (h : ∀ i, p i i)
include h

mutual

theorem Value.same_self : ∀ v : Value, v.Same p v
  | .int _ | .float _ | .bool _ | .str _ | .sym _ | .nil | .signature _ | .marker _ | .ref _ _
  | .error _ => .plain rfl
  | .array i a => .array (h i) (sameAll_self a)
  | .quote i a => .quote (h i) (sameAll_self a)
  | .closure c => .closure (Closure.same_self c)
  | .op o _ => .op (Operation.same_self o)

theorem sameAll_self : ∀ a : List Value, SameAll p a a
  | [] => .nil
  | v :: a => .cons (Value.same_self v) (sameAll_self a)

theorem Closure.same_self : ∀ c : Closure Value, c.Same p c
  | ⟨i, _, body, _, scope⟩ => .mk (h i) (sameAll_self body) (Bindings.same_self scope)

theorem Operation.same_self : ∀ o : Operation Value, o.Same p o
  | .builtin b => .builtin (Builtin.same_self b)
  | .data d => .data (DataOp.same_self d)

theorem Builtin.same_self : ∀ b : Builtin Value, b.Same p b
  | ⟨_, .primitive _⟩ => .primitive
  | ⟨_, .reply r⟩ => .reply (Reply.same_self r)
  | ⟨_, .await a⟩ => .await (Pending.same_self a)

theorem DataOp.same_self : ∀ d : DataOp Value, d.Same p d
  | ⟨_, .construct _ _ s⟩ => .construct (Bindings.same_self s)
  | ⟨_, .isInstance _⟩ => .isInstance
  | ⟨_, .isVariant _⟩ => .isVariant
  | ⟨_, .get _⟩ => .get
  | ⟨_, .set _ s⟩ => .set (Bindings.same_self s)
  | ⟨_, .update _ s⟩ => .update (Bindings.same_self s)

theorem Reply.same_self : ∀ r : Reply Value, r.Same p r
  | .value v => .value (Value.same_self v)
  | .nothing => .nothing
  | .failure _ => .failure

theorem Future.same_self : ∀ f : Future Value, f.Same p f
  | .ready r => .ready (Reply.same_self r)
  | .later _ r => .later (Reply.same_self r)
  | .never => .never

theorem Pending.same_self : ∀ a : Pending Value, a.Same p a
  | ⟨_, f, _⟩ => .mk (Future.same_self f)

theorem Bindings.same_self : ∀ s : Bindings Value, s.Same p s
  | ⟨a⟩ => .mk (sameEntries_self a)

theorem sameEntries_self : ∀ a : List (String × Value), SameEntries p a a
  | [] => .nil
  | (_, v) :: a => .cons (Value.same_self v) (sameEntries_self a)

end

end

/-! ### Lists of values and bindings -/

theorem sameAll_iff {a b : List Value} : SameAll p a b ↔ List.Forall₂ (Value.Same p) a b := by
  constructor
  · intro same
    induction a generalizing b with
    | nil => cases same; exact .nil
    | cons v a ih =>
      cases same with
      | cons vw ab => exact .cons vw (ih ab)
  · intro same
    induction same with
    | nil => exact .nil
    | cons vw _ ih => exact .cons vw ih

theorem sameEntries_iff {a b : List (String × Value)} :
    SameEntries p a b ↔ List.Forall₂ (fun x y => x.1 = y.1 ∧ x.2.Same p y.2) a b := by
  constructor
  · intro same
    induction a generalizing b with
    | nil => cases same; exact .nil
    | cons entry a ih =>
      cases same with
      | cons vw ab => exact .cons ⟨rfl, vw⟩ (ih ab)
  · intro same
    induction same with
    | nil => exact .nil
    | @cons x y _ _ xy _ ih =>
      obtain ⟨name, v⟩ := x
      obtain ⟨name', w⟩ := y
      obtain ⟨rfl, vw⟩ := xy
      exact .cons vw ih

/-! ### What a program can see of a value -/

section

variable {v w v' w' : Value}

section

variable (same : v.Same p w)
include same

theorem Value.Same.typeName : w.typeName = v.typeName := by
  cases same <;> rfl

theorem Value.Same.isNil : w.isNil = v.isNil := by
  cases same <;> rfl

theorem Value.Same.isError : w.isError = v.isError := by
  cases same <;> rfl

theorem Value.Same.isNumber : w.isNumber = v.isNumber := by
  cases same <;> rfl

theorem Value.Same.isQuotation : w.isQuotation = v.isQuotation := by
  cases same <;> rfl

theorem Value.Same.isCallable : w.isCallable = v.isCallable := by
  cases same <;> rfl

theorem Value.Same.belongsTo? (type : String) : w.belongsTo? type = v.belongsTo? type := by
  simp only [Value.belongsTo?, same.isNil, same.isNumber, same.isQuotation, same.isCallable,
    same.typeName]

theorem Value.Same.sym_iff (name : String) : w = .sym name ↔ v = .sym name := by
  cases same <;> simp

end

theorem DataOp.Same.name {d e : DataOp Value} (same : d.Same p e) : e.name = d.name := by
  cases same <;> rfl

theorem Operation.Same.name {o o' : Operation Value} (same : o.Same p o') : o'.name = o.name := by
  cases same with
  | builtin bc => cases bc <;> rfl
  | data de => exact de.name

mutual

theorem Value.Same.display {v w : Value} : v.Same p w → w.display = v.display
  | .plain _ => rfl
  | .array _ ab => by simp only [Value.display, SameAll.displayItems ", " ab]
  | .quote _ ab => by simp only [Value.display, SameAll.displayItems " " ab]
  | .closure (.mk ..) => rfl
  | .op o => by simp only [Value.display, o.name]

theorem SameAll.displayItems {a b : List Value} (separator : String) : SameAll p a b →
    Value.displayItems separator b = Value.displayItems separator a
  | .nil => rfl
  | .cons vw ab => by
    have first := Value.Same.display vw
    have rest := SameAll.displayItems separator ab
    cases ab with
    | nil => simp only [Value.displayItems, first]
    | cons => simp only [Value.displayItems, first, rest]

end

theorem Value.Same.culprit (same : v.Same p w) :
    RuntimeError.culprit w = RuntimeError.culprit v := by
  simp only [RuntimeError.culprit, same.typeName, same.display]

theorem Value.instanceType?_eq_some_iff {type : String} :
    v.instanceType? = some type ↔
      ∃ i rest, v = .array i (.sym instanceTag :: .sym type :: rest) := by
  unfold Value.instanceType?
  split
  · next tag found rest =>
    by_cases marked : tag = instanceTag
    · simp [marked]
    · simp [marked]
  · next other =>
    constructor
    · intro found
      cases found
    · rintro ⟨i, rest, rfl⟩
      exact (other i instanceTag type rest rfl).elim

theorem Value.Same.instanceType? (same : v.Same p w) : w.instanceType? = v.instanceType? := by
  apply Option.ext
  intro type
  rw [Value.instanceType?_eq_some_iff, Value.instanceType?_eq_some_iff]
  constructor
  · rintro ⟨j, rest, rfl⟩
    cases same with
    | plain free => cases free
    | array _ ab =>
      cases ab with
      | cons first tail =>
        cases tail with
        | cons second _ => exact ⟨_, _, by rw [(first.sym_iff _).1 rfl, (second.sym_iff _).1 rfl]⟩
  · rintro ⟨i, rest, rfl⟩
    cases same with
    | plain free => cases free
    | array _ ab =>
      cases ab with
      | cons first tail =>
        cases tail with
        | cons second _ => exact ⟨_, _, by rw [(first.sym_iff _).2 rfl, (second.sym_iff _).2 rfl]⟩

end

/-! ### Equality -/

structure OneToOne (p : Nat → Nat → Prop) : Prop where
  injective : ∀ {i j k}, p i k → p j k → i = j
  functional : ∀ {i j k}, p i j → p i k → j = k

theorem OneToOne.beq (one : OneToOne p) {i j i' j' : Nat} (first : p i i') (second : p j j') :
    (i' == j') = (i == j) := by
  rw [Bool.eq_iff_iff, beq_iff_eq, beq_iff_eq]
  constructor
  · rintro rfl
    exact one.injective first second
  · rintro rfl
    exact one.functional first second

/-- Plain values differ from all others. -/
theorem Value.equalIn_of_isPlain {v w : Value} (plain : v.isPlain = true)
    (other : w.isPlain = false) (shared : Bool) :
    v.equalIn shared w = false ∧ w.equalIn shared v = false := by
  cases w <;> cases other
  all_goals cases v <;> cases plain <;> exact ⟨rfl, rfl⟩

mutual

theorem Value.Same.equalIn (one : OneToOne p) (shared : Bool) {v w v' w' : Value} :
    v.Same p v' → w.Same p w' → Value.equalIn shared v' w' = Value.equalIn shared v w
  | .plain free, same => by
    cases same with
    | plain => rfl
    | _ =>
      rw [(Value.equalIn_of_isPlain free rfl shared).1,
        (Value.equalIn_of_isPlain free rfl shared).1]
  | .array ij ab, same => by
    cases same with
    | plain free =>
      rw [(Value.equalIn_of_isPlain free rfl shared).2,
        (Value.equalIn_of_isPlain free rfl shared).2]
    | array kl cd =>
      simp only [Value.equalIn, one.beq ij kl]
      exact SameAll.equalItems one _ ab cd
    | _ => rfl
  | .quote ij ab, same => by
    cases same with
    | plain free =>
      rw [(Value.equalIn_of_isPlain free rfl shared).2,
        (Value.equalIn_of_isPlain free rfl shared).2]
    | quote kl cd =>
      simp only [Value.equalIn, one.beq ij kl]
      exact SameAll.equalItems one _ ab cd
    | _ => rfl
  | .closure (.mk ij _ _), same => by
    cases same with
    | plain free =>
      rw [(Value.equalIn_of_isPlain free rfl shared).2,
        (Value.equalIn_of_isPlain free rfl shared).2]
    | closure cd =>
      cases cd with
      | mk kl => exact one.beq ij kl
    | _ => rfl
  | .op o, same => by
    cases same with
    | plain free =>
      rw [(Value.equalIn_of_isPlain free rfl shared).2,
        (Value.equalIn_of_isPlain free rfl shared).2]
    | op o' => simp only [Value.equalIn, o.name, o'.name]
    | _ => rfl

theorem SameAll.equalItems (one : OneToOne p) (shared : Bool) {a b a' b' : List Value} :
    SameAll p a a' → SameAll p b b' → Value.equalItems shared a' b' = Value.equalItems shared a b
  | .nil, same => by cases same <;> rfl
  | .cons vw ab, same => by
    cases same with
    | nil => rfl
    | cons vw' cd =>
      simp only [Value.equalItems, Value.Same.equalIn one shared vw vw',
        SameAll.equalItems one shared ab cd]

end

theorem Value.Same.beq (one : OneToOne p) {v w v' w' : Value} (first : v.Same p v')
    (second : w.Same p w') : (v' == w') = (v == w) :=
  first.equalIn one false second

end Catena
