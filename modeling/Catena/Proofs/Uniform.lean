import Catena.Operator
import Catena.Value.ParameterList
import Catena.Proofs.Identity

set_option autoImplicit false

/-!
Functions on values that take no notice of identities: on values that are the same they fail alike
or give results that are the same.
-/

namespace Catena

/-- Failing alike, or giving related results. -/
inductive Ends {α β : Type} (R : α → β → Prop) :
    Except RuntimeError α → Except RuntimeError β → Prop
  | ok {a b} : R a b → Ends R (.ok a) (.ok b)
  | error {e} : Ends R (.error e) (.error e)

variable {p : Nat → Nat → Prop}

theorem Ends.refl {α : Type} (x : Except RuntimeError α) : Ends Eq x x := by
  cases x with
  | ok a => exact .ok rfl
  | error e => exact .error

/-! ### Bindings -/

section

variable {α β : Type} {R : α → β → Prop} {a : List (String × α)} {b : List (String × β)}

theorem find?_related (same : List.Forall₂ (fun x y => x.1 = y.1 ∧ R x.2 y.2) a b)
    (name : String) : Option.Rel R (Bindings.find? name a) (Bindings.find? name b) := by
  induction same with
  | nil => exact .none
  | @cons x y _ _ xy _ ih =>
    obtain ⟨bound, v⟩ := x
    obtain ⟨bound', w⟩ := y
    obtain ⟨rfl, vw⟩ := xy
    simp only [Bindings.find?]
    by_cases found : bound = name
    · rw [if_pos found, if_pos found]
      exact .some vw
    · rw [if_neg found, if_neg found]
      exact ih

theorem replace_related (same : List.Forall₂ (fun x y => x.1 = y.1 ∧ R x.2 y.2) a b)
    (name : String) {v : α} {w : β} (vw : R v w) :
    List.Forall₂ (fun x y => x.1 = y.1 ∧ R x.2 y.2) (Bindings.replace name v a)
      (Bindings.replace name w b) := by
  induction same with
  | nil => exact .cons ⟨rfl, vw⟩ .nil
  | @cons x y _ _ xy rest ih =>
    obtain ⟨bound, v'⟩ := x
    obtain ⟨bound', w'⟩ := y
    obtain ⟨rfl, vw'⟩ := xy
    simp only [Bindings.replace]
    by_cases found : bound = name
    · rw [if_pos found, if_pos found]
      exact .cons ⟨rfl, vw⟩ rest
    · rw [if_neg found, if_neg found]
      exact .cons ⟨rfl, vw'⟩ ih

end

namespace Bindings.Same

variable {s t : Bindings Value}

theorem iff : s.Same p t ↔
    List.Forall₂ (fun x y => x.1 = y.1 ∧ x.2.Same p y.2) s.entries t.entries := by
  rw [← sameEntries_iff]
  constructor
  · rintro ⟨same⟩
    exact same
  · intro same
    exact .mk same

theorem empty : (Bindings.empty : Bindings Value).Same p .empty := .mk .nil

theorem get? (same : s.Same p t) (name : String) :
    Option.Rel (Value.Same p) (s.get? name) (t.get? name) :=
  find?_related (iff.1 same) name

theorem insert (same : s.Same p t) (name : String) {v w : Value} (vw : v.Same p w) :
    (s.insert name v).Same p (t.insert name w) :=
  iff.2 (replace_related (iff.1 same) name vw)

theorem insertAll (same : s.Same p t) {a b : List (String × Value)} (ab : SameEntries p a b) :
    (s.insertAll a).Same p (t.insertAll b) := by
  induction a generalizing b s t with
  | nil =>
    cases ab
    exact same
  | cons entry a ih =>
    cases ab with
    | cons vw rest => exact ih (same.insert _ vw) rest

end Bindings.Same

section

variable {c d : Closure Value} (same : c.Same p d)
include same

theorem Closure.Same.activation : c.activation.Same p d.activation := by
  have self : (Value.closure c).Same p (.closure d) := .closure same
  cases same with
  | @mk _ _ name _ _ _ _ _ _ _ scopes =>
    cases name with
    | none => exact scopes.insert _ self
    | some name => exact (scopes.insert _ self).insert _ self

theorem Closure.Same.signature : d.signature = c.signature := by
  cases same
  rfl

theorem Closure.Same.body : SameAll p c.body d.body := by
  cases same
  assumption

end

/-! ### Parameter lists and pairs -/

section

variable {a b : List Value}

theorem SameAll.returnTypes (same : SameAll p a b) :
    Signature.returnTypes b = Signature.returnTypes a := by
  induction a generalizing b with
  | nil => cases same; rfl
  | cons v a ih =>
    cases same with
    | cons vw ab =>
      have shown := vw.display
      cases vw with
      | plain =>
        cases v with
        | sym => simp only [Signature.returnTypes, ih ab]
        | _ => rfl
      | _ => simp only [Signature.returnTypes, RuntimeError.notAReturnType, shown]

theorem SameAll.readAfter (same : SameAll p a b) (seen : List Param) :
    Signature.readAfter seen b = Signature.readAfter seen a := by
  induction a generalizing b seen with
  | nil => cases same; rfl
  | cons v a ih =>
    cases same with
    | cons vw ab =>
      have shown := vw.display
      cases vw with
      | plain =>
        cases v with
        | sym =>
          simp only [Signature.readAfter]
          split
          · exact ih ab _
          · rfl
        | marker m =>
          cases m with
          | arrow => simp only [Signature.readAfter, ab.returnTypes]
          | _ => rfl
        | ref => exact ih ab _
        | op => simp only [Signature.readAfter, Signature.parameterName?, ih ab]
        | _ => rfl
      | op o => simp only [Signature.readAfter, Signature.parameterName?, o.name, ih ab]
      | _ =>
        simp only [Signature.readAfter, Signature.parameterName?, RuntimeError.notAParameter, shown]

theorem SameAll.ofValues (same : SameAll p a b) : Signature.ofValues b = Signature.ofValues a :=
  same.readAfter []

/-- Pairs of tests and actions, each the same. -/
abbrev SamePairs (p : Nat → Nat → Prop) : List (Value × Value) → List (Value × Value) → Prop :=
  List.Forall₂ fun x y => x.1.Same p y.1 ∧ x.2.Same p y.2

theorem SameAll.length_eq (same : SameAll p a b) : b.length = a.length :=
  (sameAll_iff.1 same).length_eq.symm

theorem SameAll.isEmpty (same : SameAll p a b) : b.isEmpty = a.isEmpty := by
  cases same <;> rfl

theorem SameAll.pairUp : ∀ {a b : List Value}, SameAll p a b →
    Ends (SamePairs p) (pairUp a) (pairUp b)
  | _, _, .nil => .ok .nil
  | _, _, .cons _ .nil => .ok .nil
  | test :: action :: _, _, .cons first (.cons second rest) => by
    have ends := SameAll.pairUp rest
    simp only [Catena.pairUp, first.isCallable, second.isCallable, RuntimeError.mismatch,
      first.culprit, second.culprit]
    by_cases fits : (!test.isCallable) = true
    · rw [if_pos fits, if_pos fits]
      exact .error
    · rw [if_neg fits, if_neg fits]
      by_cases fits' : (!action.isCallable) = true
      · rw [if_pos fits', if_pos fits']
        exact .error
      · rw [if_neg fits', if_neg fits']
        generalize Catena.pairUp _ = x at ends
        generalize Catena.pairUp _ = y at ends
        cases ends with
        | ok pairs => exact .ok (.cons ⟨first, second⟩ pairs)
        | error => exact .error
termination_by a => a.length

theorem SameAll.readPairs (same : SameAll p a b) :
    Ends (SamePairs p) (readPairs a) (readPairs b) := by
  unfold Catena.readPairs
  rw [same.length_eq]
  by_cases even : a.length % 2 = 0
  · rw [if_pos even, if_pos even]
    exact same.pairUp
  · rw [if_neg even, if_neg even]
    exact .error

end

/-! ### Types -/

section

variable {s t s' t' : Scope} {v w : Value}

theorem DataOp.Same.test? {d e : DataOp Value} (same : d.Same p e) (vw : v.Same p w) :
    e.action.test? w = d.action.test? v := by
  cases same <;> simp only [DataAction.test?, vw.instanceType?]

theorem predicate?_same (types : s.Same p s') (active : t.Same p t') (type : String) :
    Option.Rel (Value.Same p) (predicate? s t type) (predicate? s' t' type) := by
  have known := types.get? (predicateName type)
  simp only [predicate?]
  generalize s.get? (predicateName type) = x at known
  generalize s'.get? (predicateName type) = y at known
  cases known with
  | some vw => exact .some vw
  | none => exact active.get? _

theorem checkType_same (types : s.Same p s') (active : t.Same p t') (type : String)
    (vw : v.Same p w) : checkType s' t' type w = checkType s t type v := by
  have found := predicate?_same types active type
  simp only [checkType, vw.belongsTo?]
  generalize predicate? s t type = x at found
  generalize predicate? s' t' type = y at found
  cases found with
  | none => rfl
  | @some u _ same =>
    cases same with
    | op o =>
      cases o with
      | builtin => rfl
      | data de => simp only [de.test? vw]
    | plain free => cases u <;> first | rfl | cases free
    | _ => rfl

theorem Param.check_same (param : Param) (types : s.Same p s') (active : t.Same p t')
    (vw : v.Same p w) : param.check s' t' w = param.check s t v := by
  simp only [Param.check, checkType_same types active _ vw, RuntimeError.parameterMismatch,
    vw.culprit]

theorem checkResults_same (active : t.Same p t') (position : Nat) (types : List String)
    {a b : List Value} (same : SameAll p a b) :
    checkResults t' position types b = checkResults t position types a := by
  induction types generalizing position a b with
  | nil => rfl
  | cons type types ih =>
    cases same with
    | nil => rfl
    | cons vw ab =>
      simp only [checkResults, checkType_same active active type vw, ih _ ab,
        RuntimeError.returnMismatch, vw.culprit]

end

/-! ### Data declarations -/

namespace Declaration

theorem readFields_same (type : String) {v w : Value} (vw : v.Same p w) :
    readFields type w = readFields type v := by
  have quotation := vw.isQuotation
  have kind := vw.typeName
  cases vw with
  | plain => rfl
  | _ => simp only [readFields, quotation, kind]

theorem readVariants_same (union : String) : ∀ (seen : List String) {a b : List Value},
    SameAll p a b → readVariants union seen b = readVariants union seen a
  | _, _, _, .nil => rfl
  | _, v :: _, _, .cons first .nil => by
    cases first with
    | plain => rfl
    | _ => rfl
  | seen, v :: u :: rest, _, .cons first (.cons second tail) => by
    have shown := first.display
    have readRest := fun seen => readVariants_same union seen tail
    cases first with
    | plain =>
      cases v with
      | sym => simp only [readVariants, readFields_same _ second, readRest]
      | _ => rfl
    | _ => simp only [readVariants, RuntimeError.notAVariantName, shown]
termination_by _ a => a.length

theorem read_same (name : String) {v w : Value} (vw : v.Same p w) : read name w = read name v := by
  have fields := readFields_same name vw
  cases vw with
  | plain => rfl
  | array _ ab => simp only [read, ab.isEmpty, ab.length_eq, readVariants_same name [name] ab]
  | _ => simp only [read, fields]

theorem entries_same (origin : Origin) {d e : List (DataOp Value)}
    (same : List.Forall₂ (DataOp.Same p) d e) :
    SameEntries p (entries origin d) (entries origin e) := by
  induction same with
  | nil => exact .nil
  | cons de _ ih =>
    have named := (Operation.Same.data de).name
    simp only [Operation.name] at named
    simp only [entries, List.map_cons, named]
    exact .cons (.op (.data de)) ih

theorem predicates_same (decl : Declaration) :
    List.Forall₂ (DataOp.Same p) decl.predicates decl.predicates := by
  rw [List.forall₂_same]
  intro d member
  cases decl with
  | struct s =>
    cases List.mem_singleton.1 member
    exact .isInstance
  | union name variants =>
    rcases List.mem_append.1 member with member | member
    · obtain ⟨s, _, rfl⟩ := List.mem_map.1 member
      exact .isInstance
    · cases List.mem_singleton.1 member
      exact .isVariant

theorem members_same {s t : Scope} (types : s.Same p t) (struct : Struct) :
    List.Forall₂ (DataOp.Same p) (members s struct) (members t struct) := by
  refine .cons (.construct types) ?_
  generalize fieldsFrom struct.name firstField struct.fields.params = fields
  induction fields with
  | nil => exact .nil
  | cons field fields ih => exact .cons (.set types) (.cons (.update types) (.cons .get ih))

theorem operations_same (decl : Declaration) {s t : Scope} (active : s.Same p t)
    (origin : Origin) :
    List.Forall₂ (DataOp.Same p) (decl.operations s origin) (decl.operations t origin) := by
  have types := active.insertAll (entries_same origin (predicates_same decl))
  simp only [operations]
  refine List.rel_append (predicates_same decl) ?_
  generalize decl.structs = structs
  induction structs with
  | nil => exact .nil
  | cons struct structs ih => exact List.rel_append (members_same types struct) ih

end Declaration

/-! ### Arithmetic and sequences -/

section

variable {v w v' w' : Value}

theorem offender_same {fits : Value → Bool} (agree : fits v' = fits v) (first : v.Same p v')
    (second : w.Same p w') :
    RuntimeError.culprit (offender fits v' w') = RuntimeError.culprit (offender fits v w) := by
  simp only [offender, agree]
  by_cases fit : fits v = true
  · rw [if_pos fit, if_pos fit]
    exact second.culprit
  · rw [if_neg fit, if_neg fit]
    exact first.culprit

theorem NumberPair.read_same (operator : String) (first : v.Same p v') (second : w.Same p w') :
    NumberPair.read operator v' w' = NumberPair.read operator v w := by
  have offends := offender_same first.isNumber first second
  cases first with
  | plain =>
    cases second with
    | plain => rfl
    | _ => cases v <;> simp only [NumberPair.read, RuntimeError.mismatch, offends]
  | _ => cases second <;> simp only [NumberPair.read, RuntimeError.mismatch, offends]

theorem ArithmeticOp.apply_same (op : ArithmeticOp) (first : v.Same p v') (second : w.Same p w') :
    Ends (Value.Same p) (op.apply v w) (op.apply v' w') := by
  simp only [ArithmeticOp.apply, NumberPair.read_same op.name first second]
  cases NumberPair.read op.name v w with
  | error e => exact .error
  | ok pair =>
    cases pair with
    | floats x y => exact .ok (.plain rfl)
    | ints x y =>
      simp only
      cases op.onInts x y with
      | error e => exact .error
      | ok n => exact .ok (.plain rfl)

theorem negate_same (same : v.Same p w) : Ends (Value.Same p) (negate v) (negate w) := by
  have shown := same.culprit
  cases same with
  | plain =>
    cases v with
    | int n =>
      simp only [negate]
      split
      · exact .ok (.plain rfl)
      · exact .error
    | float x => exact .ok (.plain rfl)
    | _ => exact .error
  | _ =>
    simp only [negate, RuntimeError.mismatch, shown]
    exact .error

theorem Comparison.isOrdered_same (same : v.Same p w) : isOrdered w = isOrdered v := by
  cases same <;> rfl

theorem Comparison.order_same (operator : String) (first : v.Same p v') (second : w.Same p w') :
    order operator v' w' = order operator v w := by
  have offends := offender_same (isOrdered_same first) first second
  cases first with
  | plain =>
    cases second with
    | plain => rfl
    | _ => cases v <;> simp only [order, RuntimeError.mismatch, offends]
  | _ => cases second <;> simp only [order, RuntimeError.mismatch, offends]

theorem Comparison.apply_same (c : Comparison) (first : v.Same p v') (second : w.Same p w') :
    Ends (Value.Same p) (c.apply v w) (c.apply v' w') := by
  simp only [Comparison.apply, Comparison.order_same c.name first second]
  cases Comparison.order c.name v w with
  | error e => exact .error
  | ok found => exact .ok (.plain rfl)

theorem asFloat_same (operator : String) (same : v.Same p w) :
    asFloat operator w = asFloat operator v := by
  have shown := same.culprit
  cases same with
  | plain => rfl
  | _ => simp only [asFloat, RuntimeError.mismatch, shown]

theorem AssertionKind.verdict_same (one : OneToOne p) (kind : AssertionKind)
    (first : v.Same p v') (second : w.Same p w') : kind.verdict v' w' = kind.verdict v w := by
  cases kind with
  | equals => simp only [verdict, first.beq one second]
  | notEquals => simp only [verdict, bne, first.beq one second]
  | approxEquals => simp only [verdict, asFloat_same _ first, asFloat_same _ second]
  | notApproxEquals => simp only [verdict, asFloat_same _ first, asFloat_same _ second]

theorem Value.errorMessage_same (same : v.Same p w) :
    Ends (Value.Same p) v.errorMessage w.errorMessage := by
  have shown := same.culprit
  cases same with
  | plain =>
    cases v with
    | error e => exact .ok (.plain rfl)
    | _ => exact .error
  | _ =>
    simp only [Value.errorMessage, RuntimeError.mismatch, shown]
    exact .error

theorem Value.append_same {i j : Nat} (ij : p i j) (first : v.Same p v') (second : w.Same p w') :
    Ends (Value.Same p) (v.append i w) (v'.append j w') := by
  have shown := first.culprit
  cases first with
  | array _ ab =>
    refine .ok (.array ij (sameAll_iff.2 ?_))
    exact List.rel_append (sameAll_iff.1 ab) (.cons second .nil)
  | plain free =>
    cases v with
    | array => cases free
    | _ => exact .error
  | _ =>
    simp only [Value.append, RuntimeError.mismatch, shown]
    exact .error

theorem Value.length_same (same : v.Same p w) : Ends (Value.Same p) v.length w.length := by
  have shown := same.culprit
  cases same with
  | array _ ab =>
    simp only [Value.length, ab.length_eq]
    exact .ok (.plain rfl)
  | quote _ ab =>
    simp only [Value.length, ab.length_eq]
    exact .ok (.plain rfl)
  | plain =>
    cases v with
    | str text => exact .ok (.plain rfl)
    | array => exact .ok (.plain rfl)
    | quote => exact .ok (.plain rfl)
    | _ => exact .error
  | _ =>
    simp only [Value.length, RuntimeError.mismatch, shown]
    exact .error

theorem getElem?_related {α β : Type} {R : α → β → Prop} {a : List α} {b : List β}
    (same : List.Forall₂ R a b) (n : Nat) : Option.Rel R a[n]? b[n]? := by
  induction same generalizing n with
  | nil => exact .none
  | cons xy _ ih =>
    cases n with
    | zero => exact .some xy
    | succ n => exact ih n

theorem Value.nth_same (index : Int64) (same : v.Same p w) :
    Ends (Value.Same p) (v.nth index) (w.nth index) := by
  have shown := same.culprit
  cases same with
  | @array _ _ a b _ ab =>
    have element := getElem?_related (sameAll_iff.1 ab) index.toInt.toNat
    simp only [Value.nth, elementAt?, ab.length_eq]
    by_cases negative : index.toInt < 0
    · rw [if_pos negative, if_pos negative]
      exact .error
    · rw [if_neg negative, if_neg negative]
      generalize a[index.toInt.toNat]? = x at element
      generalize b[index.toInt.toNat]? = y at element
      cases element with
      | none => exact .error
      | some vw => exact .ok vw
  | plain free =>
    cases v with
    | array => cases free
    | str text =>
      simp only [Value.nth]
      split
      · exact .ok (.plain rfl)
      · exact .error
    | _ => exact .error
  | _ =>
    simp only [Value.nth, RuntimeError.mismatch, shown]
    exact .error

theorem Value.isSequence_same (same : v.Same p w) : w.isSequence = v.isSequence := by
  cases same <;> rfl

theorem Value.concat_same {i j : Nat} (ij : p i j) (first : v.Same p v') (second : w.Same p w') :
    Ends (Value.Same p) (v.concat i w) (v'.concat j w') := by
  have offends := offender_same (Value.isSequence_same first) first second
  simp only [offender] at offends
  cases first with
  | array _ ab =>
    cases second with
    | array _ cd =>
      refine .ok (.array ij (sameAll_iff.2 ?_))
      exact List.rel_append (sameAll_iff.1 ab) (sameAll_iff.1 cd)
    | plain free =>
      cases w with
      | array => cases free
      | _ =>
        simp only [Value.concat, RuntimeError.mismatch, offends]
        exact .error
    | _ =>
      simp only [Value.concat, RuntimeError.mismatch, offends]
      exact .error
  | plain free =>
    cases second with
    | plain free' =>
      cases v with
      | array => cases free
      | str =>
        cases w with
        | str => exact .ok (.plain rfl)
        | _ => exact .error
      | _ => exact .error
    | _ =>
      cases v with
      | array => cases free
      | _ =>
        simp only [Value.concat, RuntimeError.mismatch, offends]
        exact .error
  | _ =>
    cases second <;>
      (simp only [Value.concat, RuntimeError.mismatch, offends]
       exact .error)

end

/-! ### Iteration -/

inductive Source.Same (p : Nat → Nat → Prop) : Source → Source → Prop
  | range {start stop} : Source.Same p (.range start stop) (.range start stop)
  | items {a b} : SameAll p a b → Source.Same p (.items a) (.items b)
  | chars {text} : Source.Same p (.chars text) (.chars text)

namespace Source.Same

variable {s t : Source}

theorem mono {q : Nat → Nat → Prop} (h : ∀ i j, p i j → q i j) (same : s.Same p t) :
    s.Same q t := by
  cases same with
  | range => exact .range
  | items ab => exact .items (ab.mono h)
  | chars => exact .chars

theorem length (same : s.Same p t) : t.length = s.length := by
  cases same with
  | items ab => exact ab.length_eq
  | _ => rfl

theorem element (same : s.Same p t) (index : Nat) :
    (s.element index).Same p (t.element index) := by
  cases same with
  | range => exact .plain rfl
  | chars => exact .plain rfl
  | @items a b ab =>
    have element := getElem?_related (sameAll_iff.1 ab) index
    simp only [Source.element, List.getD_eq_getElem?_getD]
    generalize a[index]? = x at element
    generalize b[index]? = y at element
    cases element with
    | none => exact .plain rfl
    | some vw => exact vw

end Source.Same

end Catena
