import Catena.Proofs.Accessors
import Mathlib.Data.List.Nodup

set_option autoImplicit false

/-!
What a data declaration leaves behind. Its operations are bound one after the other, so of several
with the same name the last one stays. The predicates among them answer by the type that an instance
carries, whatever the state they are run in.
-/

namespace Catena

theorem exists_of_bind_eq_ok {α β ε : Type} {x : Except ε α} {f : α → Except ε β} {b : β}
    (ran : x >>= f = .ok b) : ∃ a, x = .ok a ∧ f a = .ok b := by
  cases x with
  | error e => cases ran
  | ok a => exact ⟨a, rfl, ran⟩

/-! ### What has been read -/

namespace Declaration

/-- The types that a declaration defines, in the order of their predicates. -/
def types : Declaration → List String
  | .struct s => [s.name]
  | .union name variants => variants.map Struct.name ++ [name]

/-- The predicate of one of these types. -/
def predicateOf (decl : Declaration) (type : String) : DataOp Value :=
  match decl with
  | .struct _ => ⟨predicateName type, .isInstance type⟩
  | .union name variants =>
    if type = name then ⟨predicateName type, .isVariant (variants.map Struct.name)⟩
    else ⟨predicateName type, .isInstance type⟩

/-- The constructor of a struct, when the declaration is made in a machine. -/
def constructorAt (decl : Declaration) (m : Machine) (s : Struct) : DataOp Value :=
  ⟨s.constructorName, .construct s.name s.fields (decl.typesAt m)⟩

/-- Types and fields are declared once, as they are written. -/
structure Proper (decl : Declaration) : Prop where
  types : decl.types.Nodup
  fields : ∀ s ∈ decl.structs, (s.fields.params.map Param.name).Nodup

variable {decl : Declaration} {m : Machine}

theorem repeated?_eq_none {seen names : List String} (none : repeated? seen names = none) :
    names.Nodup ∧ ∀ name ∈ names, name ∉ seen := by
  induction names generalizing seen with
  | nil => exact ⟨.nil, List.forall_mem_nil _⟩
  | cons name names ih =>
    rw [repeated?] at none
    split at none
    · cases none
    · next fresh =>
      obtain ⟨distinct, apart⟩ := ih none
      have other (later : String) (member : later ∈ names) : later ≠ name ∧ later ∉ seen :=
        not_or.1 (mt List.mem_cons.2 (apart later member))
      refine ⟨List.nodup_cons.2 ⟨fun member => (other name member).1 rfl, distinct⟩, ?_⟩
      exact List.forall_mem_cons.2 ⟨fresh, fun later member => (other later member).2⟩

theorem of_readFields {type : String} {v : Value} {s : Struct} (read : readFields type v = .ok s) :
    s.name = type ∧ (s.fields.params.map Param.name).Nodup := by
  unfold readFields at read
  split at read
  · next fields =>
    unfold checkFields at read
    split at read
    · cases read
    · split at read
      · cases read
      · next none =>
        cases read
        exact ⟨rfl, (repeated?_eq_none none).1⟩
  · cases read

theorem of_readVariants {union : String} {seen : List String} {items : List Value}
    {variants : List Struct} (read : readVariants union seen items = .ok variants) :
    (variants.map Struct.name).Nodup ∧ (∀ name ∈ variants.map Struct.name, name ∉ seen) ∧
      ∀ s ∈ variants, (s.fields.params.map Param.name).Nodup := by
  fun_induction readVariants union seen items generalizing variants with
  | case1 =>
    cases read
    exact ⟨.nil, List.forall_mem_nil _, List.forall_mem_nil _⟩
  | case2 seen variant fields rest ih =>
    obtain ⟨_, _, read⟩ := exists_of_bind_eq_ok read
    simp only at read
    split at read
    · cases read
    next fresh =>
    obtain ⟨s, ofFields, read⟩ := exists_of_bind_eq_ok read
    obtain ⟨later, ofRest, read⟩ := exists_of_bind_eq_ok read
    cases read
    obtain ⟨rfl, single⟩ := of_readFields ofFields
    obtain ⟨distinct, apart, each⟩ := ih ofRest
    have other (name : String) (member : name ∈ later.map Struct.name) :
        name ≠ s.name ∧ name ∉ seen :=
      not_or.1 (mt List.mem_cons.2 (apart name member))
    refine ⟨List.nodup_cons.2 ⟨fun member => (other s.name member).1 rfl, distinct⟩, ?_, ?_⟩
    · exact List.forall_mem_cons.2 ⟨fresh, fun name member => (other name member).2⟩
    · exact List.forall_mem_cons.2 ⟨single, each⟩
  | case3 => cases read
  | case4 => cases read

theorem proper_of_read {name : String} {body : Value}
    (read : Declaration.read name body = .ok decl) : decl.Proper := by
  obtain ⟨_, _, read⟩ := exists_of_bind_eq_ok read
  split at read
  · next items =>
    split at read
    · cases read
    · obtain ⟨variants, ofItems, read⟩ := exists_of_bind_eq_ok read
      cases read
      obtain ⟨distinct, apart, each⟩ := of_readVariants ofItems
      refine ⟨?_, each⟩
      refine List.nodup_append.2 ⟨distinct, List.nodup_singleton _, fun other member own same => ?_⟩
      intro equal
      exact apart other member (equal.trans (List.mem_singleton.1 same) ▸ List.mem_singleton_self _)
  · obtain ⟨s, ofFields, read⟩ := exists_of_bind_eq_ok read
    cases read
    refine ⟨List.nodup_singleton _, ?_⟩
    exact List.forall_mem_singleton.2 (of_readFields ofFields).2

/-! ### The operations -/

theorem name_predicateOf (decl : Declaration) (type : String) :
    (decl.predicateOf type).name = predicateName type := by
  unfold predicateOf
  split
  · rfl
  · split <;> rfl

theorem name_ne_of_variant {name : String} {variants : List Struct} {s : Struct}
    (distinct : (Declaration.union name variants).types.Nodup) (member : s ∈ variants) :
    s.name ≠ name :=
  (List.nodup_append.1 distinct).2.2 s.name (List.mem_map_of_mem member) name
    (List.mem_singleton_self name)

theorem predicates_eq (distinct : decl.types.Nodup) :
    decl.predicates = decl.types.map decl.predicateOf := by
  cases decl with
  | struct s => rfl
  | union name variants =>
    have own : (variants.map Struct.name).map (predicateOf (.union name variants)) =
        variants.map fun s => ⟨predicateName s.name, .isInstance s.name⟩ := by
      rw [List.map_map]
      refine List.map_congr_left fun s member => ?_
      exact if_neg (name_ne_of_variant distinct member)
    have last : predicateOf (.union name variants) name =
        ⟨predicateName name, .isVariant (variants.map Struct.name)⟩ := if_pos rfl
    rw [types, List.map_append, own, List.map_singleton, last]
    rfl

theorem predicateOf_mem (distinct : decl.types.Nodup) {type : String} (member : type ∈ decl.types) :
    decl.predicateOf type ∈ decl.operationsAt m := by
  apply List.mem_append_left
  rw [predicates_eq distinct]
  exact List.mem_map_of_mem member

theorem append_injective (ending : String) :
    Function.Injective fun name : String => name ++ ending := by
  intro a b same
  have chars := congrArg String.toList same
  simp only [String.toList_append] at chars
  exact String.toList_inj.1 (List.append_cancel_right chars)

theorem nodup_predicateNames {types : List String} :
    (types.map predicateName).Nodup ↔ (types.map Text.lowercase).Nodup := by
  have composed : types.map predicateName = (types.map Text.lowercase).map (· ++ "?") := by
    rw [List.map_map]
    rfl
  rw [composed, List.nodup_map_iff (append_injective "?")]

/-- Different types have different predicates, also under one name. -/
theorem predicateOf_injective (decl : Declaration) : Function.Injective decl.predicateOf := by
  intro type type' same
  cases decl with
  | struct s =>
    injection same with _ action
    injection action
  | union name variants =>
    simp only [predicateOf] at same
    split at same <;> split at same <;> injection same with _ action
    · next left right _ => exact left.trans right.symm
    · cases action
    · cases action
    · injection action

/-- The field that an operation is about. -/
def fieldOf? (d : DataOp Value) : Option Field :=
  match d.action with
  | .get field | .set field _ | .update field _ => some field
  | _ => none

/-- The struct that an operation is about. -/
def ownerOf? (d : DataOp Value) : Option String :=
  match d.action with
  | .construct type .. => some type
  | .get field | .set field _ | .update field _ => some field.owner
  | _ => none

theorem owner_fieldsFrom {type : String} {index : Nat} {params : List Param} {field : Field}
    (member : field ∈ fieldsFrom type index params) : field.owner = type ∧ index ≤ field.index := by
  induction params generalizing index with
  | nil => cases member
  | cons p params ih =>
    rcases List.mem_cons.1 member with rfl | later
    · exact ⟨rfl, Nat.le_refl _⟩
    · obtain ⟨owner, above⟩ := ih later
      exact ⟨owner, Nat.le_of_succ_le above⟩

theorem nodup_fieldsFrom (type : String) (index : Nat) (params : List Param) :
    (fieldsFrom type index params).Nodup := by
  induction params generalizing index with
  | nil => exact .nil
  | cons p params ih =>
    refine List.nodup_cons.2 ⟨fun member => ?_, ih (index + 1)⟩
    exact absurd (owner_fieldsFrom member).2 (Nat.not_succ_le_self index)

theorem fieldOf?_accessors {types : Scope} {base : String} {field : Field} {d : DataOp Value}
    (member : d ∈ accessors types base field) : fieldOf? d = some field := by
  simp only [accessors, List.mem_cons, List.not_mem_nil, or_false] at member
  rcases member with rfl | rfl | rfl <;> rfl

theorem nodup_accessors (types : Scope) (base : String) (field : Field) :
    (accessors types base field).Nodup := by
  simp [accessors]

theorem ownerOf?_members {types : Scope} {s : Struct} {d : DataOp Value}
    (member : d ∈ members types s) : ownerOf? d = some s.name := by
  rcases List.mem_cons.1 member with rfl | inside
  · rfl
  · obtain ⟨field, ofStruct, own⟩ := List.mem_flatMap.1 inside
    have owner := (owner_fieldsFrom ofStruct).1
    simp only [accessors, List.mem_cons, List.not_mem_nil, or_false] at own
    rcases own with rfl | rfl | rfl <;> exact congrArg some owner

theorem nodup_members (types : Scope) (s : Struct) : (members types s).Nodup := by
  refine List.nodup_cons.2 ⟨fun inside => ?_, List.nodup_flatMap.2 ⟨fun field _ => ?_, ?_⟩⟩
  · obtain ⟨field, _, own⟩ := List.mem_flatMap.1 inside
    cases fieldOf?_accessors own
  · exact nodup_accessors types _ field
  · refine (nodup_fieldsFrom s.name firstField s.fields.params).imp fun other => ?_
    intro d own own'
    exact other (Option.some.inj ((fieldOf?_accessors own).symm.trans (fieldOf?_accessors own')))

/-- No operation is made twice. -/
theorem nodup_operationsAt (proper : decl.Proper) (m : Machine) : (decl.operationsAt m).Nodup := by
  have structs : (decl.structs.map Struct.name).Nodup := by
    cases decl with
    | struct s => exact List.nodup_singleton _
    | union name variants => exact (List.nodup_append.1 proper.types).1
  refine List.nodup_append'.2 ⟨?_, List.nodup_flatMap.2 ⟨fun s _ => nodup_members _ s, ?_⟩, ?_⟩
  · rw [predicates_eq proper.types]
    exact proper.types.map decl.predicateOf_injective
  · refine (List.pairwise_map.1 structs).imp fun other => ?_
    intro d own own'
    exact other (Option.some.inj ((ownerOf?_members own).symm.trans (ownerOf?_members own')))
  · intro d predicate member
    obtain ⟨s, _, own⟩ := List.mem_flatMap.1 member
    have owned := ownerOf?_members own
    rw [predicates_eq proper.types] at predicate
    obtain ⟨type, _, rfl⟩ := List.mem_map.1 predicate
    unfold predicateOf at owned
    split at owned
    · cases owned
    · split at owned <;> cases owned

/-! ### How they are bound -/

/-- No later operation has the name of `d`. -/
def Keeps (ops : List (DataOp Value)) (d : DataOp Value) : Prop :=
  ∃ before after, ops = before ++ d :: after ∧ ∀ e ∈ after, e.name ≠ d.name

variable {ops : List (DataOp Value)} {d : DataOp Value}

/-- Among operations of one name there is a last one. -/
theorem exists_keeps (member : d ∈ ops) : ∃ e, e.name = d.name ∧ Keeps ops e := by
  induction ops generalizing d with
  | nil => cases member
  | cons first ops ih =>
    by_cases later : ∃ e ∈ ops, e.name = d.name
    · obtain ⟨e, inside, same⟩ := later
      obtain ⟨last, named, before, after, rfl, kept⟩ := ih inside
      exact ⟨last, named.trans same, first :: before, after, rfl, kept⟩
    · have none (e : DataOp Value) (inside : e ∈ ops) : e.name ≠ d.name :=
        fun same => later ⟨e, inside, same⟩
      have here : d = first :=
        (List.mem_cons.1 member).resolve_right fun inside => none d inside rfl
      subst here
      exact ⟨d, rfl, [], ops, rfl, none⟩

/-- The last operation of a name is the one that is bound. -/
theorem get?_of_keeps (kept : Keeps ops d) (b : Scope) (origin : Origin) :
    (b.insertAll (entries origin ops)).get? d.name = some (.op (.data d) origin) := by
  obtain ⟨before, after, rfl, none⟩ := kept
  have split : b.insertAll (entries origin (before ++ d :: after)) =
      ((b.insertAll (entries origin before)).insert d.name (.op (.data d) origin)).insertAll
        (entries origin after) := by
    simp only [Bindings.insertAll, entries, List.map_append, List.map_cons, List.foldl_append,
      List.foldl_cons]
  rw [split, get?_insertAll_of_not_mem, Bindings.get?_insert, if_pos rfl]
  intro member
  simp only [entries, List.map_map, List.mem_map, Function.comp_apply] at member
  obtain ⟨e, inside, same⟩ := member
  exact none e inside same

theorem get?_iff_keeps (member : d ∈ ops) (b : Scope) (origin : Origin) :
    (b.insertAll (entries origin ops)).get? d.name = some (.op (.data d) origin) ↔ Keeps ops d := by
  constructor
  · intro bound
    obtain ⟨e, same, kept⟩ := exists_keeps member
    have other := get?_of_keeps kept b origin
    rw [same, bound] at other
    injection other with value
    injection value with operation
    injection operation with equal
    rwa [equal]
  · intro kept
    exact get?_of_keeps kept b origin

/-- Nothing is replaced if and only if the names are different. -/
theorem forall_keeps_iff (distinct : ops.Nodup) :
    (∀ d ∈ ops, Keeps ops d) ↔ (ops.map DataOp.name).Nodup := by
  constructor
  · intro all
    refine (List.nodup_map_iff_inj_on distinct).2 fun d member e member' same => ?_
    have bound := get?_of_keeps (all d member) .empty .none
    have bound' := get?_of_keeps (all e member') .empty .none
    rw [same, bound'] at bound
    injection bound with value
    injection value with operation
    injection operation with equal
    exact equal.symm
  · intro names d member
    obtain ⟨before, after, rfl⟩ := List.append_of_mem member
    refine ⟨before, after, rfl, fun e inside same => ?_⟩
    rw [List.map_append, List.map_cons] at names
    have fresh := (List.nodup_cons.1 (List.nodup_append.1 names).2.1).1
    exact fresh (same ▸ List.mem_map_of_mem inside)

end Declaration

/-! ### Declaring -/

namespace Machine

variable {m made : Machine} {decl : Declaration}

/-- A declaration that is made binds its operations and changes nothing else. -/
theorem of_declare (declared : m.declare decl = .ok made) :
    (∀ d ∈ decl.operationsAt m, m.registry.get? d.name = none) ∧
      made = { m with scopes := { m.scopes with
        active := m.scopes.active.insertAll
          (Declaration.entries m.origin (decl.operationsAt m)) } } := by
  unfold declare at declared
  simp only at declared
  split at declared
  · cases declared
  · next free =>
    cases declared
    refine ⟨fun d member => ?_, rfl⟩
    have unshadowed := List.find?_eq_none.1 free d member
    simpa [isBuiltin, Bindings.contains] using unshadowed

end Machine

namespace Exec

variable {m m' : Machine} {v : Value}

theorem of_pop (popped : pop m = .ok v m') :
    m'.operands.floor = m.operands.floor ∧ m'.operands.count + 1 = m.operands.count ∧
      m'.operands.floor ≤ m'.operands.count := by
  unfold pop at popped
  split at popped
  · next w rest found =>
    cases popped
    have count := Operands.count_of_pop found
    unfold Operands.pop at found
    split at found
    · cases found
    · next accessible =>
      split at found
      · cases found
        refine ⟨rfl, count.symm, ?_⟩
        rw [Operands.accessible, count] at accessible
        change m.operands.floor ≤ _
        dsimp only at accessible ⊢
        omega
      · cases found
  · cases popped

/-- Making a declaration takes its name and its body, which are above the floor. -/
theorem of_dataDef {name : String} {body : Value} {decl : Declaration} {made : Machine}
    (accepted : Declaration.read name body = .ok decl)
    (declared : dataDef (m.given [.sym name, body]) = .ok () made) :
    m.operands.floor ≤ m.operands.count ∧ m.declare decl = .ok made := by
  have grounded : m.operands.floor ≤ m.operands.count := by
    obtain ⟨_, _, first, rest⟩ := bind_eq_ok declared
    obtain ⟨_, _, named, _⟩ := bind_eq_ok rest
    obtain ⟨_, _, second, taken⟩ := bind_eq_ok named
    obtain ⟨floor, count, _⟩ := of_pop first
    obtain ⟨floor', count', above⟩ := of_pop second
    have height := Machine.count_given (m := m) [.sym name, body]
    have lowest := Machine.floor_given (m := m) [.sym name, body]
    simp only [List.length_cons, List.length_nil] at height
    omega
  refine ⟨grounded, ?_⟩
  rw [dataDef_given grounded accepted, change] at declared
  split at declared
  · next bound =>
    cases declared
    exact bound
  · cases declared

theorem exists_dataDef {name : String} {body : Value} {decl : Declaration}
    (accepted : Declaration.read name body = .ok decl)
    (free : ((decl.operationsAt m).all fun d => !m.isBuiltin d.name) = true)
    (grounded : m.operands.floor ≤ m.operands.count) :
    ∃ made, dataDef (m.given [.sym name, body]) = .ok () made := by
  obtain ⟨made, declared⟩ := Declaration.exists_declare free
  refine ⟨made, ?_⟩
  rw [dataDef_given grounded accepted, change]
  simp only [declared]

/-- A name that is bound to an operation and belongs to no builtin runs the operation. -/
theorem resolve_data {d : DataOp Value} {origin : Origin}
    (unregistered : m.registry.get? d.name = none)
    (bound : m.scopes.get? d.name = some (.op (.data d) origin)) (args : List Value) :
    resolve d.name (m.given args) = invokeOperation (.data d) (m.given args) := by
  have registry : (m.given args).registry.get? d.name = none := unregistered
  have scopes : (m.given args).scopes.get? d.name = some (.op (.data d) origin) := bound
  simp only [resolve, Bind.bind, EStateM.bind, get_apply, registry, scopes]

/-- A data operation that hands over to nothing. -/
theorem invokeOperation_plain {d : DataOp Value} {x : Exec Unit} (plain : dataOp d = Exec.plain x)
    (m : Machine) : invokeOperation (.data d) m = x m := by
  simp only [invokeOperation, Parallel.invoke_op, operation, plain, Exec.plain, Bind.bind,
    EStateM.bind]
  cases x m <;> rfl

end Exec

/-! ### Asking a predicate -/

namespace DataOp

variable {d : DataOp Value} {v : Value} {b b' : Bool}

/-- Run on a value, the operation leaves an answer in its place and does nothing else, in whatever
state. -/
def Answers (d : DataOp Value) (v : Value) (b : Bool) : Prop :=
  ∀ n : Machine, n.operands.floor ≤ n.operands.count →
    Exec.invokeOperation (.data d) (n.given [v]) = .ok () (n.given [.bool b])

theorem answers_of_test? (test : d.action.test? v = some b) : d.Answers v b := by
  intro n grounded
  have popped := Exec.pop_given grounded [] v
  rw [List.nil_append] at popped
  rw [Exec.invokeOperation_plain (Exec.dataOp_of_test? test)]
  simp only [Exec.unary, Bind.bind, EStateM.bind, popped, test]
  rfl

theorem Answers.unique (first : d.Answers v b) (second : d.Answers v b') : b = b' := by
  have same := (first (.new .empty) (Nat.le_refl 0)).symm.trans (second _ (Nat.le_refl 0))
  injection same with _ same
  have tops := congrArg (fun k => k.operands.items.toList.head?) same
  injection tops with value
  injection value

theorem Answers.yields {m : Machine} {origin : Origin} (answers : d.Answers v b)
    (unregistered : m.registry.get? d.name = none)
    (bound : m.scopes.get? d.name = some (.op (.data d) origin))
    (grounded : m.operands.floor ≤ m.operands.count) : m.Yields d.name [v] (.bool b) := by
  refine ⟨m.nextId, ?_⟩
  rw [Exec.resolve_data unregistered bound]
  exact answers m grounded

theorem answers_iff {answer : Bool} (test : d.action.test? v = some answer) :
    d.Answers v b ↔ answer = b := by
  constructor
  · intro answers
    exact (answers_of_test? test).unique answers
  · rintro rfl
    exact answers_of_test? test

end DataOp

/-! ### A declaration of shapes -/

namespace Declaration

def shapeBody : Value :=
  .array 0 [.sym "Dot", .signature .empty, .sym "Point", .signature Struct.point.fields]

theorem read_shape : Declaration.read "Shape" shapeBody = .ok .shape := by rfl

theorem nodup_names_shape : ((shape.operationsAt (.new .standard)).map DataOp.name).Nodup := by
  decide +kernel

theorem exists_dataDef_shape :
    ∃ made, Exec.dataDef ((Machine.new .standard).given [.sym "Shape", shapeBody]) =
      .ok () made := by
  have free : ((shape.operationsAt (.new .standard)).all fun d =>
      !(Machine.new .standard).isBuiltin d.name) = true := by decide +kernel
  exact Exec.exists_dataDef read_shape free (Nat.le_refl 0)

end Declaration

end Catena
