import Catena.Proofs.Declaring

set_option autoImplicit false

/-!
What type names stand for. A signature that names a declared type admits just the values that the
predicate of the type holds of, unless the language has a meaning of its own for the name. The types
of one declaration find each other whatever has been bound meanwhile, so a constructor takes what
the predicates of its own declaration hold of.
-/

namespace Catena

/-! ### Names known to the language -/

namespace Value

/-- The type names that the language has a meaning for. -/
def knownTypes : List String := ["Any", "Num", "Quot", "ExeArr", "Fn"] ++ plainTypes

variable {v : Value} {type : String}

theorem belongsTo?_of_not_known (foreign : type ∉ knownTypes) : v.belongsTo? type = none := by
  simp only [knownTypes, List.cons_append, List.nil_append, List.mem_cons, not_or] at foreign
  obtain ⟨any, num, quot, code, callable, plain⟩ := foreign
  rw [belongsTo?, if_neg any, if_neg num, if_neg (not_or.2 ⟨quot, code⟩), if_neg callable,
    if_neg plain]

theorem exists_belongsTo? (known : type ∈ knownTypes) : ∃ b, v.belongsTo? type = some b := by
  rw [belongsTo?]
  split
  · exact ⟨_, rfl⟩
  · split
    · exact ⟨_, rfl⟩
    · split
      · exact ⟨_, rfl⟩
      · split
        · exact ⟨_, rfl⟩
        · next any num quot callable =>
          obtain ⟨quot, code⟩ := not_or.1 quot
          refine ⟨_, if_pos ?_⟩
          simpa [knownTypes, any, num, quot, code, callable] using known

end Value

section

variable {types active : Scope} {type : String} {v : Value} {d : DataOp Value} {b : Bool}

theorem checkType_of_belongsTo? (verdict : v.belongsTo? type = some b) :
    checkType types active type v = .ok b := by
  rw [checkType, verdict]

/-- A predicate that is found under the name of the type's own is asked. -/
theorem checkType_of_predicate {origin : Origin} (foreign : type ∉ Value.knownTypes)
    (found : types.get? (predicateName type) = some (.op (.data d) origin))
    (test : d.action.test? v = some b) : checkType types active type v = .ok b := by
  have resolved : predicate? types active type = some (.op (.data d) origin) := by
    rw [predicate?, found]
  rw [checkType, Value.belongsTo?_of_not_known foreign, resolved]
  simp only [test]

/-! Parameters, results and fields all ask the same question. -/

theorem Param.check_of_checkType {p : Param} (declared : p.type = some type)
    (checked : checkType types active type v = .ok b) :
    p.check types active v = if b then .ok () else .error (.parameterMismatch p.name type v) := by
  rw [Param.check, declared]
  simp only [checked]
  cases b <;> rfl

theorem Param.check_iff {p : Param} (declared : p.type = some type)
    (checked : checkType types active type v = .ok b) :
    p.check types active v = .ok () ↔ b = true := by
  rw [check_of_checkType declared checked]
  cases b <;> simp

theorem checkResults_iff (checked : checkType active active type v = .ok b) (position : Nat) :
    checkResults active position [type] [v] = .ok () ↔ b = true := by
  rw [checkResults, checked]
  cases b <;> simp [checkResults]

theorem Exec.checkField_iff {field : Field} {m : Machine} (declared : field.type = some type)
    (checked : checkType types m.scopes.active type v = .ok b) :
    checkField field types v m = .ok () m ↔ b = true := by
  rw [checkField, declared]
  simp only [Bind.bind, EStateM.bind, get_apply, checked, ofExcept]
  cases b
  · exact iff_of_false (by rintro ⟨⟩) Bool.false_ne_true
  · exact iff_of_true rfl rfl

end

/-! ### Predicates of a declaration -/

namespace Declaration

variable {decl : Declaration} {m : Machine} {type : String} {v : Value}

theorem exists_test? (decl : Declaration) (type : String) (v : Value) :
    ∃ b, (decl.predicateOf type).action.test? v = some b := by
  unfold predicateOf
  split
  · exact ⟨_, rfl⟩
  · split <;> exact ⟨_, rfl⟩

/-- What a type stands for, when its predicate has not been replaced. -/
theorem checkType_of_keeps {ops : List (DataOp Value)} (foreign : type ∉ Value.knownTypes)
    (kept : Keeps ops (decl.predicateOf type)) (b active : Scope) (origin : Origin) {answer : Bool}
    (test : (decl.predicateOf type).action.test? v = some answer) :
    checkType (b.insertAll (entries origin ops)) active type v = .ok answer := by
  have found := get?_of_keeps kept b origin
  rw [name_predicateOf] at found
  exact checkType_of_predicate foreign found test

end Declaration

/-- When a declaration has been made, one of its types means what its predicate says: to parameters,
results and fields alike. A name that the language knows keeps the meaning that the language gives
it, though. -/
theorem checkType_declared {m made : Machine} {name type : String} {body : Value}
    {decl : Declaration} (accepted : Declaration.read name body = .ok decl)
    (declared : Exec.dataDef (m.given [.sym name, body]) = .ok () made)
    (member : type ∈ decl.types) (v : Value) :
    (type ∈ Value.knownTypes → ∃ b, v.belongsTo? type = some b ∧
      checkType made.scopes.active made.scopes.active type v = .ok b) ∧
    (type ∉ Value.knownTypes →
      Declaration.Keeps (decl.operationsAt m) (decl.predicateOf type) →
      ∃ b, checkType made.scopes.active made.scopes.active type v = .ok b ∧
        (decl.predicateOf type).Answers v b ∧ made.Yields (predicateName type) [v] (.bool b) ∧
        (∀ p : Param, p.type = some type →
          (p.check made.scopes.active made.scopes.active v = .ok () ↔ b = true)) ∧
        (∀ position, checkResults made.scopes.active position [type] [v] = .ok () ↔ b = true) ∧
        ∀ field : Field, field.type = some type →
          (Exec.checkField field made.scopes.active v made = .ok () made ↔ b = true)) := by
  have proper := Declaration.proper_of_read accepted
  have own := Declaration.predicateOf_mem (m := m) proper.types member
  obtain ⟨grounded, bound⟩ := Exec.of_dataDef accepted declared
  obtain ⟨free, rfl⟩ := Machine.of_declare bound
  refine ⟨fun known => ?_, fun foreign kept => ?_⟩
  · obtain ⟨b, verdict⟩ := Value.exists_belongsTo? (v := v) known
    exact ⟨b, verdict, checkType_of_belongsTo? verdict⟩
  · obtain ⟨b, test⟩ := decl.exists_test? type v
    have checked := Declaration.checkType_of_keeps foreign kept m.scopes.active
      (m.scopes.active.insertAll (Declaration.entries m.origin (decl.operationsAt m))) m.origin test
    have answers := DataOp.answers_of_test? test
    have found := Declaration.get?_of_keeps kept m.scopes.active m.origin
    have yields := answers.yields (m := { m with scopes := { m.scopes with
      active := m.scopes.active.insertAll (Declaration.entries m.origin (decl.operationsAt m)) } })
      (free _ own) found grounded
    rw [Declaration.name_predicateOf] at yields
    exact ⟨b, checked, answers, yields, fun p ofType => Param.check_iff ofType checked,
      checkResults_iff checked, fun field ofType => Exec.checkField_iff ofType checked⟩

/-- The union `Shape` is checked by its own predicate, which holds of dots and not of numbers. -/
theorem checkType_declared_shape :
    ∃ made, Exec.dataDef ((Machine.new .standard).given [.sym "Shape", Declaration.shapeBody]) =
        .ok () made ∧
      checkType made.scopes.active made.scopes.active "Shape"
        (.array 1 [.sym instanceTag, .sym "Dot"]) = .ok true ∧
      checkType made.scopes.active made.scopes.active "Shape" (.int 7) = .ok false := by
  have foreign : "Shape" ∉ Value.knownTypes := by decide
  have member : "Shape" ∈ Declaration.shape.types := by decide
  have proper := Declaration.proper_of_read Declaration.read_shape
  have kept := (Declaration.forall_keeps_iff (Declaration.nodup_operationsAt proper _)).2
    Declaration.nodup_names_shape _ (Declaration.predicateOf_mem proper.types member)
  obtain ⟨made, declared⟩ := Declaration.exists_dataDef_shape
  have means (v : Value) :=
    (checkType_declared Declaration.read_shape declared member v).2 foreign kept
  obtain ⟨b, dot, holds, _⟩ := means (.array 1 [.sym instanceTag, .sym "Dot"])
  obtain ⟨b', number, fails, _⟩ := means (.int 7)
  have test : (Declaration.shape.predicateOf "Shape").action.test?
      (.array 1 [.sym instanceTag, .sym "Dot"]) = some true := by rfl
  have test' : (Declaration.shape.predicateOf "Shape").action.test? (.int 7) = some false := by rfl
  obtain rfl := (DataOp.answers_iff test).1 holds
  obtain rfl := (DataOp.answers_iff test').1 fails
  exact ⟨made, declared, dot, number⟩

/-- A struct with the name of a type that the language knows. -/
def Struct.number : Struct := ⟨"Int", ⟨[⟨"x", none⟩], none⟩⟩

/-- A declaration of `Int` is accepted, but signatures go on to admit numbers, of which the
predicate does not hold. -/
theorem exists_known_type_declared :
    ∃ made, Declaration.read "Int" (.signature Struct.number.fields) = .ok (.struct .number) ∧
      Exec.dataDef ((Machine.new .standard).given [.sym "Int", .signature Struct.number.fields]) =
        .ok () made ∧
      checkType made.scopes.active made.scopes.active "Int" (.int 5) = .ok true ∧
      ((Declaration.struct .number).predicateOf "Int").Answers (.int 5) false := by
  have accepted : Declaration.read "Int" (.signature Struct.number.fields) =
      .ok (.struct .number) := by rfl
  have free : (((Declaration.struct .number).operationsAt (.new .standard)).all fun d =>
      !(Machine.new .standard).isBuiltin d.name) = true := by decide +kernel
  obtain ⟨made, declared⟩ := Exec.exists_dataDef accepted free (Nat.le_refl 0)
  have known : (Value.int 5).belongsTo? "Int" = some true := by rfl
  exact ⟨made, accepted, declared, checkType_of_belongsTo? known, DataOp.answers_of_test? rfl⟩

/-! ### The types of one declaration -/

namespace Exec

variable {m : Machine} {types : Scope}

/-- Checking a list of arguments fails at one that is refused. -/
theorem collectInto_eq_error {params : List Param} {values : List Value} {signal : Signal}
    {m' : Machine} (failed : collectInto types params values m = .error signal m') :
    ∃ (i : Nat) (p : Param) (v : Value) (e : RuntimeError), params[i]? = some p ∧
      values[i]? = some v ∧ p.check types m.scopes.active v = .error e ∧ signal = .error e ∧
      m' = m := by
  induction params generalizing values signal m' with
  | nil => cases failed
  | cons p params ih =>
    cases values with
    | nil => cases failed
    | cons v values =>
      cases checked : p.check types m.scopes.active v with
      | error e =>
        rw [collectInto_of_refused checked] at failed
        cases failed
        exact ⟨0, p, v, e, rfl, rfl, checked, rfl, rfl⟩
      | ok _ =>
        rw [collectInto_of_accepted checked] at failed
        simp only [Bind.bind, EStateM.bind] at failed
        cases later : collectInto types params values m with
        | ok rest mid =>
          rw [later] at failed
          cases failed
        | error signal' mid =>
          rw [later] at failed
          cases failed
          obtain ⟨i, q, w, e, isParam, isValue, refused, same, rfl⟩ := ih later
          exact ⟨i + 1, q, w, e, isParam, isValue, refused, same, rfl⟩

end Exec

namespace Struct

/-- A field takes a value: a field of a type of the declaration takes what the type's own predicate
holds of, and a field of a known type what belongs there. -/
def Suits (s : Struct) (decl : Declaration) (i : s.Place) (v : Value) : Prop :=
  ∀ type, (s.param i).type = some type →
    (type ∈ decl.types → (decl.predicateOf type).Answers v true) ∧
      (type ∈ Value.knownTypes → v.belongsTo? type = some true)

end Struct

namespace Declaration

variable {decl : Declaration} {s : Struct} {type : String}

/-- The types of a declaration can be told apart, and the language knows none of them. -/
structure Unambiguous (decl : Declaration) : Prop where
  proper : decl.Proper
  distinct : (decl.types.map Text.lowercase).Nodup
  foreign : ∀ type ∈ decl.types, type ∉ Value.knownTypes

/-- Among the types that the operations of a declaration know, each has its own predicate. -/
theorem Unambiguous.get?_typesAt (clear : decl.Unambiguous) (member : type ∈ decl.types)
    (m : Machine) :
    (decl.typesAt m).get? (predicateName type) =
      some (.op (.data (decl.predicateOf type)) m.origin) := by
  have names : (entries m.origin decl.predicates).map Prod.fst = decl.types.map predicateName := by
    rw [predicates_eq clear.proper.types, entries, List.map_map, List.map_map]
    exact List.map_congr_left fun type _ => name_predicateOf decl type
  refine get?_insertAll ?_ ?_
  · rw [names]
    exact nodup_predicateNames.2 clear.distinct
  · rw [predicates_eq clear.proper.types, ← name_predicateOf decl]
    exact List.mem_map_of_mem (List.mem_map_of_mem member)

/-- A type of the declaration or of the language is never unknown. -/
theorem Unambiguous.checkType_typesAt (clear : decl.Unambiguous)
    (resolved : type ∈ decl.types ∨ type ∈ Value.knownTypes) (m : Machine) (active : Scope)
    (v : Value) :
    ∃ b, checkType (decl.typesAt m) active type v = .ok b ∧
      (b = true ↔ (type ∈ decl.types → (decl.predicateOf type).Answers v true) ∧
        (type ∈ Value.knownTypes → v.belongsTo? type = some true)) := by
  have foreign := clear.foreign type
  rcases resolved with own | known
  · obtain ⟨b, test⟩ := decl.exists_test? type v
    refine ⟨b, checkType_of_predicate (foreign own) (clear.get?_typesAt own m) test, ?_⟩
    rw [DataOp.answers_iff test]
    exact ⟨fun holds => ⟨fun _ => holds, fun known => absurd known (foreign own)⟩,
      fun both => both.1 own⟩
  · obtain ⟨b, verdict⟩ := Value.exists_belongsTo? (v := v) known
    refine ⟨b, checkType_of_belongsTo? verdict, ?_⟩
    rw [verdict, Option.some_inj]
    exact ⟨fun holds => ⟨fun own => absurd known (foreign own), fun _ => holds⟩,
      fun both => both.2 known⟩

/-- An instance satisfies the predicates of its struct and of the declaration, and no other one. -/
theorem test?_instanceOf (member : s ∈ decl.structs) (id : Nat) (values : List Value) :
    (decl.predicateOf type).action.test? (s.instanceOf id values) =
      some (decide (type = s.name ∨ type = decl.name)) := by
  cases decl with
  | struct t =>
    obtain rfl : s = t := List.mem_singleton.1 member
    simp [predicateOf, DataAction.test?, name, beq_eq_decide, eq_comm (a := type)]
  | union union variants =>
    by_cases whole : type = union
    · have variant : s.name ∈ variants.map Struct.name := List.mem_map_of_mem member
      simpa [predicateOf, DataAction.test?, name, whole] using variant
    · simp [predicateOf, DataAction.test?, name, whole, beq_eq_decide, eq_comm (a := type)]

/-- The predicate of the whole holds where that of a struct does. -/
theorem answers_name_iff (proper : decl.Proper) {v : Value} :
    (decl.predicateOf decl.name).Answers v true ↔
      ∃ t ∈ decl.structs, (decl.predicateOf t.name).Answers v true := by
  cases decl with
  | struct s => simp [structs, name]
  | union union variants =>
    have whole : (predicateOf (.union union variants) union).action =
        .isVariant (variants.map Struct.name) := by
      rw [predicateOf, if_pos rfl]
    have part (t : Struct) (member : t ∈ variants) :
        (predicateOf (.union union variants) t.name).action.test? v =
          some (v.instanceType? == some t.name) := by
      simp [predicateOf, DataAction.test?, name_ne_of_variant proper.types member]
    have parts : (∃ t ∈ variants, (predicateOf (.union union variants) t.name).Answers v true) ↔
        ∃ t ∈ variants, v.instanceType? = some t.name := by
      refine exists_congr fun t => and_congr_right fun member => ?_
      rw [DataOp.answers_iff (part t member), beq_iff_eq]
    change _ ↔ ∃ t ∈ variants, _
    rw [parts, show (Declaration.union union variants).name = union from rfl]
    cases found : v.instanceType? with
    | none =>
      have test : (predicateOf (.union union variants) union).action.test? v = some false := by
        rw [whole, DataAction.test?, found]
      simp [DataOp.answers_iff test]
    | some type =>
      have test : (predicateOf (.union union variants) union).action.test? v =
          some ((variants.map Struct.name).contains type) := by
        rw [whole, DataAction.test?, found]
      simp [DataOp.answers_iff test, eq_comm]

end Declaration

/-- An error says that a value does not fit, or that its type is not known. -/
theorem RuntimeError.parameterMismatch_ne (name type other : String) (v : Value) :
    parameterMismatch name type v ≠ unknownType other := by
  intro same
  injection same with text
  have first := congrArg (fun message => message.toList.head?) text
  simp [toString] at first

namespace Struct

variable {s : Struct} {decl : Declaration} {m n : Machine} {i : s.Place} {v : Value}

/-- The names that the typed fields of a struct use mean something. -/
def Resolves (s : Struct) (decl : Declaration) : Prop :=
  ∀ p ∈ s.fields.params, ∀ type, p.type = some type →
    type ∈ decl.types ∨ type ∈ Value.knownTypes

theorem accepts_iff_suits (clear : decl.Unambiguous) (resolved : s.Resolves decl) :
    s.Accepts (decl.typesAt m) n i v ↔ s.Suits decl i v := by
  unfold Accepts Suits
  cases declared : (s.param i).type with
  | none => simp [Param.check, declared]
  | some type =>
    have known := resolved _ (List.get_mem ..) type declared
    obtain ⟨b, checked, holds⟩ := clear.checkType_typesAt known m n.scopes.active v
    rw [Param.check_iff declared checked, holds]
    simp

/-- A refused value is reported as one that does not fit. -/
theorem check_eq_error (clear : decl.Unambiguous) (resolved : s.Resolves decl) {e : RuntimeError}
    (refused : (s.param i).check (decl.typesAt m) n.scopes.active v = .error e) :
    ∃ type, (s.param i).type = some type ∧ e = .parameterMismatch (s.param i).name type v := by
  cases declared : (s.param i).type with
  | none =>
    rw [Param.check, declared] at refused
    cases refused
  | some type =>
    have known := resolved _ (List.get_mem ..) type declared
    obtain ⟨b, checked, _⟩ := clear.checkType_typesAt known m n.scopes.active v
    rw [Param.check_of_checkType declared checked] at refused
    cases b with
    | true => cases refused
    | false =>
      cases refused
      exact ⟨type, rfl, rfl⟩

end Struct

namespace Exec

variable {decl : Declaration} {m n : Machine} {s : Struct} {args : List Value}

section

variable (grounded : n.operands.floor ≤ n.operands.count)
include grounded

theorem invoke_constructorAt (length : args.length = s.fields.arity) :
    invokeOperation (.data (decl.constructorAt m s)) (n.given args) =
      (do
        let bound ← collectInto (decl.typesAt m) s.fields.params args
        pushArray (.sym instanceTag :: .sym s.name :: bound.map Prod.snd) : Exec Unit) n := by
  have taken := takeArguments_given grounded args
  rw [length] at taken
  rw [invokeOperation_plain rfl]
  simp only [collect, Bind.bind, EStateM.bind, taken]

/-- The constructor makes an instance of arguments that suit the fields. -/
theorem invoke_constructorAt_of_takesAll (suits : s.TakesAll (s.Accepts (decl.typesAt m) n) args) :
    invokeOperation (.data (decl.constructorAt m s)) (n.given args) =
      .ok () { n with
        operands := n.operands.push (s.instanceOf n.nextId args), nextId := n.nextId + 1 } := by
  have length : args.length = s.fields.arity := suits.1
  have collected := (collectInto_eq_ok_iff length).2 ⟨rfl, rfl, Struct.forall₂_check_iff.2 suits⟩
  rw [invoke_constructorAt grounded length]
  simp only [Bind.bind, EStateM.bind, collected, map_snd_zip_names length]
  rfl

/-- Otherwise it fails at one that is refused. -/
theorem invoke_constructorAt_of_not_takesAll (length : args.length = s.fields.arity)
    (refused : ¬ s.TakesAll (s.Accepts (decl.typesAt m) n) args) :
    ∃ (i : s.Place) (v : Value) (e : RuntimeError), args[i.val]? = some v ∧
      (s.param i).check (decl.typesAt m) n.scopes.active v = .error e ∧
      invokeOperation (.data (decl.constructorAt m s)) (n.given args) = .error (.error e) n := by
  rw [invoke_constructorAt grounded length]
  cases ran : collectInto (decl.typesAt m) s.fields.params args n with
  | ok bound n' =>
    have checks := ((collectInto_eq_ok_iff length).1 ran).2.2
    exact absurd (Struct.forall₂_check_iff.1 checks) refused
  | error signal n' =>
    obtain ⟨i, p, v, e, isParam, isValue, failed, rfl, rfl⟩ := collectInto_eq_error ran
    obtain ⟨inside, rfl⟩ := List.getElem?_eq_some_iff.1 isParam
    refine ⟨⟨i, inside⟩, v, e, isValue, failed, ?_⟩
    simp only [Bind.bind, EStateM.bind, ran]

end

end Exec

/-- The types of a declaration find each other, in whatever state its operations are run later. The
constructor of a struct takes arguments if and only if each field of one of these types gets a value
that the predicate of that type holds of, and each field of a known type one that belongs there. An
argument that it does not take is said not to fit, and no type is said to be unknown. The instance
satisfies the predicates of its struct and of the whole declaration and no other one, and the
predicate of the whole holds where that of some struct does. -/
theorem group_resolves {name : String} {body : Value} {decl : Declaration} {s : Struct}
    (accepted : Declaration.read name body = .ok decl)
    (distinct : (decl.types.map Text.lowercase).Nodup)
    (foreign : ∀ type ∈ decl.types, type ∉ Value.knownTypes)
    (resolved : ∀ t ∈ decl.structs, t.Resolves decl) (member : s ∈ decl.structs) (m : Machine) :
    (decl.constructorAt m s ∈ decl.operationsAt m ∧
      ∀ type ∈ decl.types, decl.predicateOf type ∈ decl.operationsAt m) ∧
    (∀ (n : Machine) (args : List Value), n.operands.floor ≤ n.operands.count →
      args.length = s.fields.arity →
      ((∃ n', Exec.invokeOperation (.data (decl.constructorAt m s)) (n.given args) = .ok () n') ↔
        s.TakesAll (s.Suits decl) args) ∧
      (∀ n', Exec.invokeOperation (.data (decl.constructorAt m s)) (n.given args) = .ok () n' →
        n' = { n with
          operands := n.operands.push (s.instanceOf n.nextId args), nextId := n.nextId + 1 }) ∧
      ∀ signal n', Exec.invokeOperation (.data (decl.constructorAt m s)) (n.given args) =
          .error signal n' →
        n' = n ∧ (∀ other, signal ≠ .error (.unknownType other)) ∧
        ∃ (i : s.Place) (v : Value) (type : String), args[i.val]? = some v ∧
          (s.param i).type = some type ∧ ¬ s.Suits decl i v ∧
          signal = .error (.parameterMismatch (s.param i).name type v)) ∧
    (∀ id values, ∀ type ∈ decl.types, (decl.predicateOf type).Answers (s.instanceOf id values)
      (decide (type = s.name ∨ type = decl.name))) ∧
    ∀ v, (decl.predicateOf decl.name).Answers v true ↔
      ∃ t ∈ decl.structs, (decl.predicateOf t.name).Answers v true := by
  have proper := Declaration.proper_of_read accepted
  have clear : decl.Unambiguous := ⟨proper, distinct, foreign⟩
  have suits (n : Machine) (i : s.Place) (v : Value) :
      s.Accepts (decl.typesAt m) n i v ↔ s.Suits decl i v :=
    Struct.accepts_iff_suits clear (resolved s member)
  refine ⟨⟨Declaration.construct_mem member, fun type own => ?_⟩, fun n args grounded length => ?_,
    fun id values type _ => ?_, fun v => Declaration.answers_name_iff proper⟩
  · exact Declaration.predicateOf_mem proper.types own
  · have same :
        s.TakesAll (s.Accepts (decl.typesAt m) n) args ↔ s.TakesAll (s.Suits decl) args := by
      unfold Struct.TakesAll
      simp only [suits]
    rw [← same]
    by_cases takes : s.TakesAll (s.Accepts (decl.typesAt m) n) args
    · rw [Exec.invoke_constructorAt_of_takesAll grounded takes]
      refine ⟨iff_of_true ⟨_, rfl⟩ takes, fun n' built => ?_, fun signal n' failed => ?_⟩
      · cases built
        rfl
      · cases failed
    · obtain ⟨i, v, e, isValue, failed, ran⟩ :=
        Exec.invoke_constructorAt_of_not_takesAll grounded length takes
      obtain ⟨type, declared, rfl⟩ := Struct.check_eq_error clear (resolved s member) failed
      have unsuited : ¬ s.Suits decl i v := by
        rw [← suits n, Struct.Accepts, failed]
        rintro ⟨⟩
      rw [ran]
      refine ⟨iff_of_false (by rintro ⟨_, ⟨⟩⟩) takes, fun n' built => ?_, fun signal n' other => ?_⟩
      · cases built
      · cases other
        refine ⟨rfl, fun other same => ?_, i, v, type, isValue, declared, unsuited, rfl⟩
        injection same with same
        exact RuntimeError.parameterMismatch_ne _ _ _ _ same
  · exact DataOp.answers_of_test? (Declaration.test?_instanceOf member id values)

/-- The fields `(head, tail :List)`. -/
def Struct.cons : Struct := ⟨"Cons", ⟨[⟨"head", none⟩, ⟨"tail", some "List"⟩], none⟩⟩

/-- Lists, of which `Cons` speaks before they are declared. -/
def Declaration.list : Declaration := .union "List" [⟨"Empty", .empty⟩, .cons]

/-- A machine on which the name of the predicate of lists has been given away. -/
def Machine.listless : Machine := { registry := .empty, scopes := ⟨⟨[("list?", .int 0)]⟩, []⟩ }

/-- Lists are still made of lists, and not of numbers. -/
theorem group_resolves_list :
    (∃ n', Exec.invokeOperation (.data (Declaration.list.constructorAt (.new .standard) .cons))
      (Machine.listless.given [.int 1, .array 0 [.sym instanceTag, .sym "Empty"]]) = .ok () n') ∧
    ¬ ∃ n', Exec.invokeOperation (.data (Declaration.list.constructorAt (.new .standard) .cons))
      (Machine.listless.given [.int 1, .int 2]) = .ok () n' := by
  have accepted : Declaration.read "List" (.array 0 [.sym "Empty", .signature .empty, .sym "Cons",
      .signature Struct.cons.fields]) = .ok .list := by rfl
  have distinct : (Declaration.list.types.map Text.lowercase).Nodup := by decide +kernel
  have foreign : ∀ type ∈ Declaration.list.types, type ∉ Value.knownTypes := by decide
  have resolved : ∀ t ∈ Declaration.list.structs, t.Resolves .list := by
    refine List.forall_mem_cons.2 ⟨List.forall_mem_nil _, List.forall_mem_singleton.2 ?_⟩
    refine List.forall_mem_cons.2 ⟨by rintro _ ⟨⟩, List.forall_mem_singleton.2 ?_⟩
    rintro _ ⟨⟩
    exact .inl (by decide)
  have member : Struct.cons ∈ Declaration.list.structs :=
    List.mem_cons_of_mem _ List.mem_cons_self
  obtain ⟨_, runs, _⟩ := group_resolves accepted distinct foreign resolved member (.new .standard)
  have grounded : Machine.listless.operands.floor ≤ Machine.listless.operands.count := Nat.le_refl 0
  constructor
  · refine (runs .listless _ grounded rfl).1.2 ⟨rfl, ?_⟩
    rintro ⟨i, lt⟩ x found type declared
    cases i with
    | zero => cases declared
    | succ i =>
      cases i with
      | zero =>
        cases declared
        cases found
        exact ⟨fun _ => DataOp.answers_of_test? rfl, fun known => absurd known (by decide)⟩
      | succ i => exact absurd (Nat.lt_of_succ_lt_succ (Nat.lt_of_succ_lt_succ lt)) i.not_lt_zero
  · intro built
    have takes := (runs .listless _ grounded rfl).1.1 built
    have holds := (takes.2 ⟨1, by decide⟩ (.int 2) rfl "List" rfl).1 (by decide)
    have test : (Declaration.list.predicateOf "List").action.test? (.int 2) = some false := by rfl
    cases (DataOp.answers_iff test).1 holds

end Catena
