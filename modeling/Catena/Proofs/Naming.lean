import Catena.Proofs.Declaring
import Mathlib.Data.List.Perm.Basic

set_option autoImplicit false

/-!
The names that a declaration composes. They are made of type names in lower case, field names and a
few endings, so two of them may come out the same although types and fields differ as they are
written. Then the operation that is bound last takes the place of the other. Which declarations keep
their names apart can be said by a few comparisons, and for types whose names hold no dash and no
question mark only their lower case and the fields of one struct matter.
-/

namespace Catena

namespace Struct

def fieldNames (s : Struct) : List String := s.fields.params.map Param.name

/-- The name of the getter of a field. -/
def nameFor (s : Struct) (field : String) : String := s!"{s.constructorName}-{field}"

def getterNames (s : Struct) : List String := s.fieldNames.map s.nameFor

end Struct

namespace Declaration

def constructorNames (decl : Declaration) : List String := decl.structs.map Struct.constructorName

def getterNames (decl : Declaration) : List String := decl.structs.flatMap Struct.getterNames

/-- The names of a getter, a setter and an updater. -/
def accessorNames (getter : String) : List String := [getter ++ "-set", getter ++ "-do", getter]

/-- What has to be compared for the names to be different. -/
structure KeepsApart (decl : Declaration) : Prop where
  types : (decl.types.map Text.lowercase).Nodup
  getters : decl.getterNames.Nodup
  predicates : ∀ type ∈ decl.types,
    predicateName type ∉ decl.constructorNames ∧ predicateName type ∉ decl.getterNames
  constructors : ∀ getter ∈ decl.getterNames, ∀ name ∈ accessorNames getter,
    name ∉ decl.constructorNames
  writers : ∀ getter ∈ decl.getterNames,
    getter ++ "-set" ∉ decl.getterNames ∧ getter ++ "-do" ∉ decl.getterNames

variable {decl : Declaration} {m : Machine}

/-! ### Families of names -/

theorem names_accessors (types : Scope) (base : String) (field : Field) :
    (accessors types base field).map DataOp.name = accessorNames s!"{base}-{field.name}" := rfl

theorem names_members (types : Scope) (s : Struct) :
    (members types s).map DataOp.name =
      s.constructorName :: s.getterNames.flatMap accessorNames := by
  have each (index : Nat) (params : List Param) :
      ((fieldsFrom s.name index params).flatMap (accessors types s.constructorName)).map
        DataOp.name = ((params.map Param.name).map s.nameFor).flatMap accessorNames := by
    induction params generalizing index with
    | nil => rfl
    | cons p params ih =>
      rw [fieldsFrom, List.flatMap_cons, List.map_append, ih, names_accessors]
      rfl
  exact congrArg (s.constructorName :: ·) (each firstField s.fields.params)

/-- The names, ordered by what the operations do. -/
theorem names_perm (distinct : decl.types.Nodup) (m : Machine) :
    List.Perm ((decl.operationsAt m).map DataOp.name)
      (decl.types.map predicateName ++ (decl.constructorNames ++
        (decl.getterNames.map (· ++ "-set") ++ (decl.getterNames.map (· ++ "-do") ++
          decl.getterNames)))) := by
  have predicates : decl.predicates.map DataOp.name = decl.types.map predicateName := by
    rw [predicates_eq distinct, List.map_map]
    exact List.map_congr_left fun type _ => name_predicateOf decl type
  have others : (decl.structs.flatMap (members (decl.typesAt m))).map DataOp.name =
      decl.structs.flatMap fun s => s.constructorName :: s.getterNames.flatMap accessorNames := by
    rw [List.map_flatMap]
    exact List.flatMap_congr fun s _ => names_members _ s
  have split : List.Perm
      (decl.structs.flatMap fun s => s.constructorName :: s.getterNames.flatMap accessorNames)
      (decl.constructorNames ++ decl.getterNames.flatMap accessorNames) := by
    have joined : decl.getterNames.flatMap accessorNames =
        decl.structs.flatMap fun s => s.getterNames.flatMap accessorNames := List.flatMap_assoc
    rw [joined]
    exact (List.map_append_flatMap_perm ..).symm
  have accessors : List.Perm (decl.getterNames.flatMap accessorNames)
      (decl.getterNames.map (· ++ "-set") ++ (decl.getterNames.map (· ++ "-do") ++
        decl.getterNames)) := by
    have writers := List.map_append_flatMap_perm decl.getterNames (· ++ "-set")
      fun getter => [getter ++ "-do", getter]
    have readers := List.map_append_flatMap_perm decl.getterNames (· ++ "-do")
      fun getter => [getter]
    rw [List.flatMap_singleton'] at readers
    exact writers.symm.trans (readers.symm.append_left _)
  rw [operationsAt, operations, List.map_append, predicates]
  refine List.Perm.append_left _ ?_
  exact (List.Perm.of_eq others).trans (split.trans (accessors.append_left _))

/-! ### Comparing names -/

theorem append_ne_append {a b x y : String} {c d : Char} (ending : x.toList.getLast? = some c)
    (ending' : y.toList.getLast? = some d) (other : c ≠ d) : a ++ x ≠ b ++ y := by
  intro same
  have last := congrArg (fun name => name.toList.getLast?) same
  simp only [String.toList_append, List.getLast?_append, ending, ending', Option.some_or] at last
  exact other (Option.some.inj last)

theorem constructorNames_sublist (decl : Declaration) :
    decl.constructorNames.Sublist (decl.types.map Text.lowercase) := by
  cases decl with
  | struct s => exact .refl _
  | union name variants =>
    rw [types, List.map_append, List.map_map]
    exact List.sublist_append_left ..

theorem nodup_names_iff (distinct : decl.types.Nodup) :
    ((decl.operationsAt m).map DataOp.name).Nodup ↔ decl.KeepsApart := by
  rw [(names_perm distinct m).nodup_iff]
  simp only [List.nodup_append', nodup_predicateNames, List.nodup_map_iff (append_injective _),
    List.disjoint_append_right]
  constructor
  · rintro ⟨types, ⟨_, ⟨getters, ⟨_, _, updaters⟩, _, setters⟩, set, update, get⟩,
      constructors, _, _, readers⟩
    refine ⟨types, getters, fun type member => ?_, fun getter member name among built => ?_,
      fun getter member => ⟨?_, ?_⟩⟩
    · have composed := List.mem_map_of_mem (f := predicateName) member
      exact ⟨constructors composed, readers composed⟩
    · simp only [accessorNames, List.mem_cons, List.not_mem_nil, or_false] at among
      rcases among with rfl | rfl | rfl
      · exact set built (List.mem_map_of_mem member)
      · exact update built (List.mem_map_of_mem member)
      · exact get built member
    · exact setters (List.mem_map_of_mem member)
    · exact updaters (List.mem_map_of_mem member)
  · rintro ⟨types, getters, predicates, constructors, writers⟩
    -- Names with different endings are different whatever they begin with.
    have ends : ("-set".toList.getLast? = some 't' ∧ "-do".toList.getLast? = some 'o') ∧
        "?".toList.getLast? = some '?' := by decide
    obtain ⟨⟨set, update⟩, ask⟩ := ends
    refine ⟨types, ⟨types.sublist decl.constructorNames_sublist, ⟨getters, ⟨getters, getters, ?_⟩,
      ?_, ?_⟩, ?_, ?_, ?_⟩, ?_, ?_, ?_, ?_⟩
    · intro name updater getter
      obtain ⟨g, member, rfl⟩ := List.mem_map.1 updater
      exact (writers g member).2 getter
    · intro name setter updater
      obtain ⟨g, _, rfl⟩ := List.mem_map.1 setter
      obtain ⟨g', _, same⟩ := List.mem_map.1 updater
      exact append_ne_append update set (by decide) same
    · intro name setter getter
      obtain ⟨g, member, rfl⟩ := List.mem_map.1 setter
      exact (writers g member).1 getter
    · intro name built setter
      obtain ⟨g, member, rfl⟩ := List.mem_map.1 setter
      exact constructors g member _ List.mem_cons_self built
    · intro name built updater
      obtain ⟨g, member, rfl⟩ := List.mem_map.1 updater
      exact constructors g member _ (List.mem_cons_of_mem _ List.mem_cons_self) built
    · intro name built getter
      exact constructors name getter _ (by simp [accessorNames]) built
    · intro name predicate built
      obtain ⟨type, member, rfl⟩ := List.mem_map.1 predicate
      exact (predicates type member).1 built
    · intro name predicate setter
      obtain ⟨type, _, rfl⟩ := List.mem_map.1 predicate
      obtain ⟨g, _, same⟩ := List.mem_map.1 setter
      exact append_ne_append set ask (by decide) same
    · intro name predicate updater
      obtain ⟨type, _, rfl⟩ := List.mem_map.1 predicate
      obtain ⟨g, _, same⟩ := List.mem_map.1 updater
      exact append_ne_append update ask (by decide) same
    · intro name predicate getter
      obtain ⟨type, member, rfl⟩ := List.mem_map.1 predicate
      exact (predicates type member).2 getter

/-! ### Plain type names -/

/-- No type has a dash or a question mark in its name. -/
def PlainTypes (decl : Declaration) : Prop :=
  ∀ type ∈ decl.types, '-' ∉ (Text.lowercase type).toList ∧ '?' ∉ (Text.lowercase type).toList

theorem name_mem_types {s : Struct} (member : s ∈ decl.structs) : s.name ∈ decl.types := by
  cases decl with
  | struct t => exact List.mem_singleton.2 (congrArg Struct.name (List.mem_singleton.1 member))
  | union name variants => exact List.mem_append_left _ (List.mem_map_of_mem member)

/-- What stands before the first dash, and what stands behind it. -/
theorem append_dash_inj {a b x y : List Char} (plain : '-' ∉ a) (plain' : '-' ∉ b)
    (same : a ++ '-' :: x = b ++ '-' :: y) : a = b ∧ x = y := by
  rcases List.append_eq_append_iff.1 same with ⟨more, rfl, rest⟩ | ⟨more, rfl, rest⟩
  · cases more with
    | nil => simpa using rest
    | cons c more =>
      obtain ⟨rfl, _⟩ := List.cons.inj rest
      simp at plain'
  · cases more with
    | nil => simpa using rest.symm
    | cons c more =>
      obtain ⟨rfl, _⟩ := List.cons.inj rest
      simp at plain

theorem toList_nameFor (s : Struct) (field : String) :
    (s.nameFor field).toList = s.constructorName.toList ++ '-' :: field.toList := by
  have composed : s.nameFor field = s.constructorName ++ "-" ++ field := rfl
  simp [composed]

theorem nameFor_append (s : Struct) (field ending : String) :
    s.nameFor field ++ ending = s.nameFor (field ++ ending) := by
  have composed (field : String) : s.nameFor field = s.constructorName ++ "-" ++ field := rfl
  rw [composed, composed, String.append_assoc]

theorem mem_getterNames {name : String} :
    name ∈ decl.getterNames ↔
      ∃ s ∈ decl.structs, ∃ field ∈ s.fieldNames, s.nameFor field = name := by
  simp only [getterNames, Struct.getterNames, List.mem_flatMap, List.mem_map]

/-- Names of fields belong to one struct, whose name stands before the dash. -/
theorem PlainTypes.nameFor_inj (plain : decl.PlainTypes)
    (distinct : (decl.types.map Text.lowercase).Nodup) {s t : Struct} (member : s ∈ decl.structs)
    (member' : t ∈ decl.structs) {field field' : String}
    (same : s.nameFor field = t.nameFor field') : s = t ∧ field = field' := by
  have chars := congrArg String.toList same
  rw [toList_nameFor, toList_nameFor] at chars
  obtain ⟨base, rest⟩ := append_dash_inj (plain _ (name_mem_types member)).1
    (plain _ (name_mem_types member')).1 chars
  have structs := distinct.sublist decl.constructorNames_sublist
  exact ⟨List.inj_on_of_nodup_map structs member member' (String.toList_inj.1 base),
    String.toList_inj.1 rest⟩

theorem PlainTypes.nameFor_mem_iff (plain : decl.PlainTypes)
    (distinct : (decl.types.map Text.lowercase).Nodup) {s : Struct} (member : s ∈ decl.structs)
    (field : String) : s.nameFor field ∈ decl.getterNames ↔ field ∈ s.fieldNames := by
  rw [mem_getterNames]
  constructor
  · rintro ⟨t, member', field', own, same⟩
    obtain ⟨rfl, rfl⟩ := plain.nameFor_inj distinct member' member same
    exact own
  · intro own
    exact ⟨s, member, field, own, rfl⟩

/-- A struct's own name is not composed with a dash. -/
theorem PlainTypes.nameFor_notMem (plain : decl.PlainTypes) (s : Struct) (field : String) :
    s.nameFor field ∉ decl.constructorNames := by
  intro built
  obtain ⟨t, member, same⟩ := List.mem_map.1 built
  apply (plain _ (name_mem_types member)).1
  change '-' ∈ t.constructorName.toList
  rw [same, toList_nameFor]
  simp

theorem PlainTypes.predicateName_notMem (plain : decl.PlainTypes) {type : String}
    (member : type ∈ decl.types) :
    predicateName type ∉ decl.constructorNames ∧ predicateName type ∉ decl.getterNames := by
  have chars : (predicateName type).toList = (Text.lowercase type).toList ++ ['?'] := by
    rw [predicateName, String.toList_append]
    rfl
  constructor
  · intro built
    obtain ⟨s, own, same⟩ := List.mem_map.1 built
    apply (plain _ (name_mem_types own)).2
    change '?' ∈ s.constructorName.toList
    rw [same, chars]
    simp
  · intro getter
    obtain ⟨s, _, field, _, same⟩ := mem_getterNames.1 getter
    have dash : '-' ∈ (predicateName type).toList := by
      rw [← same, toList_nameFor]
      simp
    rw [chars, List.mem_append] at dash
    exact dash.elim (plain type member).1 (by simp)

/-- With plain type names it only matters that types differ in lower case, and that no field is
named like another one of its struct with an ending behind it. -/
theorem keepsApart_iff_of_plain (proper : decl.Proper) (plain : decl.PlainTypes) :
    decl.KeepsApart ↔ (decl.types.map Text.lowercase).Nodup ∧
      ∀ s ∈ decl.structs, ∀ field ∈ s.fieldNames,
        field ++ "-set" ∉ s.fieldNames ∧ field ++ "-do" ∉ s.fieldNames := by
  constructor
  · intro apart
    refine ⟨apart.types, fun s member field own => ?_⟩
    have mine := plain.nameFor_mem_iff apart.types member
    have writers := apart.writers _ ((mine field).2 own)
    rwa [nameFor_append, nameFor_append, mine, mine] at writers
  · rintro ⟨distinct, fields⟩
    have single (s : Struct) (member : s ∈ decl.structs) : s.getterNames.Nodup :=
      (proper.fields s member).map_on fun field _ field' _ same =>
        (plain.nameFor_inj distinct member member same).2
    have structs : decl.structs.Nodup := (distinct.sublist decl.constructorNames_sublist).of_map
    have apart : decl.structs.Pairwise fun s t => s.getterNames.Disjoint t.getterNames := by
      refine structs.imp_of_mem fun {s t} member member' other name own own' => other ?_
      obtain ⟨field, _, rfl⟩ := List.mem_map.1 own
      obtain ⟨field', _, same⟩ := List.mem_map.1 own'
      exact (plain.nameFor_inj distinct member member' same.symm).1
    refine ⟨distinct, List.nodup_flatMap.2 ⟨single, apart⟩,
      fun type member => plain.predicateName_notMem member, fun getter member name among => ?_,
      fun getter member => ?_⟩
    · obtain ⟨s, _, field, _, rfl⟩ := mem_getterNames.1 member
      simp only [accessorNames, List.mem_cons, List.not_mem_nil, or_false, nameFor_append] at among
      rcases among with rfl | rfl | rfl <;> exact plain.nameFor_notMem s _
    · obtain ⟨s, own, field, inside, rfl⟩ := mem_getterNames.1 member
      rw [nameFor_append, nameFor_append, plain.nameFor_mem_iff distinct own,
        plain.nameFor_mem_iff distinct own]
      exact fields s own field inside

end Declaration

/-- The operations of an accepted declaration have different names if and only if the declaration
keeps them apart. When it has been made, an operation is found under its name if and only if no
later one has the same name, and all of them are found if and only if the names are kept apart. -/
theorem declared_apart_iff {name : String} {body : Value} {decl : Declaration}
    (accepted : Declaration.read name body = .ok decl) :
    (∀ m, ((decl.operationsAt m).map DataOp.name).Nodup ↔ decl.KeepsApart) ∧
    (decl.PlainTypes → (decl.KeepsApart ↔ (decl.types.map Text.lowercase).Nodup ∧
      ∀ s ∈ decl.structs, ∀ field ∈ s.fieldNames,
        field ++ "-set" ∉ s.fieldNames ∧ field ++ "-do" ∉ s.fieldNames)) ∧
    ∀ m made, Exec.dataDef (m.given [.sym name, body]) = .ok () made →
      (∀ d ∈ decl.operationsAt m, made.scopes.get? d.name = some (.op (.data d) m.origin) ↔
        Declaration.Keeps (decl.operationsAt m) d) ∧
      ((∀ d ∈ decl.operationsAt m, made.scopes.get? d.name = some (.op (.data d) m.origin)) ↔
        decl.KeepsApart) := by
  have proper := Declaration.proper_of_read accepted
  have names (m : Machine) := Declaration.nodup_names_iff (m := m) proper.types
  refine ⟨names, Declaration.keepsApart_iff_of_plain proper, fun m made declared => ?_⟩
  obtain ⟨_, rfl⟩ := Machine.of_declare (Exec.of_dataDef accepted declared).2
  have bound (d : DataOp Value) (member : d ∈ decl.operationsAt m) :=
    Declaration.get?_iff_keeps member m.scopes.active m.origin
  refine ⟨bound, ?_⟩
  rw [← names m, ← Declaration.forall_keeps_iff (Declaration.nodup_operationsAt proper m)]
  exact forall₂_congr bound

/-- All operations of `Dot` and `Point` are found. -/
theorem declared_apart_iff_shape :
    ∃ made, Exec.dataDef ((Machine.new .standard).given [.sym "Shape", Declaration.shapeBody]) =
        .ok () made ∧
      ∀ d ∈ Declaration.shape.operationsAt (.new .standard),
        made.scopes.get? d.name = some (.op (.data d) .none) := by
  obtain ⟨made, declared⟩ := Declaration.exists_dataDef_shape
  obtain ⟨names, _, bound⟩ := declared_apart_iff Declaration.read_shape
  exact ⟨made, declared, (bound _ made declared).2.2 ((names _).1 Declaration.nodup_names_shape)⟩

/-- A struct with a field that has the name of a setter. -/
def Struct.shadowed : Struct := ⟨"P", ⟨[⟨"x", none⟩, ⟨"x-set", none⟩], none⟩⟩

/-- The getter of `x-set` takes the place of the setter of `x`. -/
theorem exists_setter_replaced :
    ∃ made setter getter,
      Declaration.read "P" (.signature Struct.shadowed.fields) = .ok (.struct .shadowed) ∧
      Exec.dataDef ((Machine.new .standard).given [.sym "P", .signature Struct.shadowed.fields]) =
        .ok () made ∧
      setter ∈ (Declaration.struct .shadowed).operationsAt (.new .standard) ∧
      getter ∈ (Declaration.struct .shadowed).operationsAt (.new .standard) ∧
      setter.name = "p-x-set" ∧ getter.name = "p-x-set" ∧
      (∃ types, setter.action = .set ⟨"P", "x", 2, none⟩ types) ∧
      getter.action = .get ⟨"P", "x-set", 3, none⟩ ∧
      made.scopes.get? "p-x-set" = some (.op (.data getter) .none) := by
  have accepted : Declaration.read "P" (.signature Struct.shadowed.fields) =
      .ok (.struct .shadowed) := by rfl
  have free : (((Declaration.struct .shadowed).operationsAt (.new .standard)).all fun d =>
      !(Machine.new .standard).isBuiltin d.name) = true := by decide +kernel
  obtain ⟨made, declared⟩ := Exec.exists_dataDef accepted free (Nat.le_refl 0)
  obtain ⟨_, rfl⟩ := Machine.of_declare (Exec.of_dataDef accepted declared).2
  have own : Struct.shadowed ∈ (Declaration.struct .shadowed).structs := List.mem_singleton.2 rfl
  have setter := Declaration.set_mem (m := .new .standard) own ⟨0, by decide⟩
  have getter := Declaration.get_mem (m := .new .standard) own ⟨1, by decide⟩
  have named : Struct.shadowed.setterName ⟨0, by decide⟩ = "p-x-set" := by decide +kernel
  have named' : Struct.shadowed.getterName ⟨1, by decide⟩ = "p-x-set" := by decide +kernel
  -- The getter of the last field is the last operation of all.
  have last : Declaration.Keeps ((Declaration.struct .shadowed).operationsAt (.new .standard))
      ⟨Struct.shadowed.getterName ⟨1, by decide⟩, .get (Struct.shadowed.field ⟨1, by decide⟩)⟩ :=
    ⟨((Declaration.struct .shadowed).operationsAt (.new .standard)).dropLast, [], rfl,
      List.forall_mem_nil _⟩
  have bound := Declaration.get?_of_keeps last Bindings.empty .none
  refine ⟨_, _, _, accepted, declared, setter, getter, named, named', ⟨_, rfl⟩, rfl, ?_⟩
  rw [← named']
  exact bound

end Catena
