import Catena.Proofs.Invocation
import Catena.Proofs.Taking
import Mathlib.Data.List.Induction

set_option autoImplicit false

/-!
Structs and their fields. Constructor, getters and setters of a declaration are separate operations,
found by their composed names, yet together they treat an instance as a record: what is written to a
field is read from it, the other fields keep their values, and the instance stays one of its type.
-/

namespace Catena

/-! ### Computing with a name -/

namespace Machine

/-- The machine with more operands, the last on top. -/
def given (m : Machine) (args : List Value) : Machine :=
  { m with operands := args.foldl Operands.push m.operands }

/-- Running a name takes the arguments and leaves a value in their place. Nothing else changes but
the identity that comes next. -/
def Yields (m : Machine) (name : String) (args : List Value) (v : Value) : Prop :=
  ∃ next, Exec.resolve name (m.given args) =
    .ok () { m with operands := m.operands.push v, nextId := next }

/-- The machine finds operations by their names, and has no floor above its operands. -/
structure Hosts (m : Machine) (ops : List (DataOp Value)) : Prop where
  grounded : m.operands.floor ≤ m.operands.count
  unregistered : ∀ d ∈ ops, m.registry.get? d.name = none
  bound : ∀ d ∈ ops, ∃ origin, m.scopes.get? d.name = some (.op (.data d) origin)

end Machine

namespace Declaration

/-- The operations of a declaration that is made in a machine. -/
def operationsAt (decl : Declaration) (m : Machine) : List (DataOp Value) :=
  decl.operations m.scopes.active m.origin

/-- The predicates that these operations know. -/
def typesAt (decl : Declaration) (m : Machine) : Scope :=
  m.scopes.active.insertAll (entries m.origin decl.predicates)

end Declaration

namespace Struct

/-- The place of a field among the fields of a struct. -/
abbrev Place (s : Struct) : Type := Fin s.fields.params.length

def param (s : Struct) (i : s.Place) : Param := s.fields.params.get i

def constructorName (s : Struct) : String := Text.lowercase s.name

def getterName (s : Struct) (i : s.Place) : String := s!"{s.constructorName}-{(s.param i).name}"

def setterName (s : Struct) (i : s.Place) : String := s.getterName i ++ "-set"

/-- A field takes a value, by what type names mean to the machine. -/
def Accepts (s : Struct) (types : Scope) (m : Machine) (i : s.Place) (v : Value) : Prop :=
  (s.param i).check types m.scopes.active v = .ok ()

/-- The types of the fields mean the same to both machines. -/
def Alike (s : Struct) (types : Scope) (m n : Machine) : Prop :=
  ∀ i type, (s.param i).type = some type →
    predicate? types m.scopes.active type = predicate? types n.scopes.active type

def field (s : Struct) (i : s.Place) : Field :=
  ⟨s.name, (s.param i).name, firstField + i, (s.param i).type⟩

/-- An instance: the mark, the type and the values of the fields. -/
def instanceOf (s : Struct) (id : Nat) (values : List Value) : Value :=
  .array id (.sym instanceTag :: .sym s.name :: values)

/-- Reading a field of `p` gives `x`. -/
def Gets (s : Struct) (n : Machine) (i : s.Place) (p x : Value) : Prop :=
  n.Yields (s.getterName i) [p] x

/-- Writing `x` to a field of `p` gives `q`. -/
def Sets (s : Struct) (n : Machine) (i : s.Place) (p x q : Value) : Prop :=
  n.Yields (s.setterName i) [p, x] q

@[simp] theorem instanceType?_instanceOf (s : Struct) (id : Nat) (values : List Value) :
    (s.instanceOf id values).instanceType? = some s.name := by
  simp [instanceOf, Value.instanceType?]

end Struct

/-! ### The operations of a declaration -/

namespace Declaration

variable {decl : Declaration} {m m' : Machine} {s : Struct}

theorem get?_insertAll_of_not_mem {b : Scope} {pairs : List (String × Value)} {name : String}
    (other : name ∉ pairs.map Prod.fst) : (b.insertAll pairs).get? name = b.get? name := by
  induction pairs generalizing b with
  | nil => rfl
  | cons pair pairs ih =>
    obtain ⟨first, rest⟩ := not_or.1 (mt List.mem_cons.2 other)
    have kept : (b.insert pair.1 pair.2).get? name = b.get? name := by
      rw [Bindings.get?_insert, if_neg fun same => first same.symm]
    exact (ih rest).trans kept

theorem get?_insertAll {b : Scope} {pairs : List (String × Value)} {name : String} {v : Value}
    (distinct : (pairs.map Prod.fst).Nodup) (member : (name, v) ∈ pairs) :
    (b.insertAll pairs).get? name = some v := by
  induction pairs generalizing b with
  | nil => cases member
  | cons pair pairs ih =>
    obtain ⟨fresh, distinct⟩ := List.nodup_cons.1 distinct
    rcases List.mem_cons.1 member with rfl | member
    · have own : (b.insert name v).get? name = some v := by
        rw [Bindings.get?_insert, if_pos rfl]
      exact (get?_insertAll_of_not_mem fresh).trans own
    · exact ih distinct member

theorem exists_declare
    (free : ((decl.operationsAt m).all fun d => !m.isBuiltin d.name) = true) :
    ∃ m', m.declare decl = .ok m' := by
  have none : (decl.operations m.scopes.active m.origin).find? (fun d => m.isBuiltin d.name) =
      none := by
    rw [List.find?_eq_none]
    intro d member
    simpa using List.all_eq_true.1 free d member
  unfold Machine.declare
  dsimp only
  rw [none]
  exact ⟨_, rfl⟩

/-- Where an accepted declaration has been made, its operations are found. -/
theorem hosts_of_declare (declared : m.declare decl = .ok m')
    (distinct : ((decl.operationsAt m).map DataOp.name).Nodup)
    (grounded : m.operands.floor ≤ m.operands.count) : m'.Hosts (decl.operationsAt m) := by
  unfold Machine.declare at declared
  simp only at declared
  split at declared
  · cases declared
  · next free =>
    cases declared
    refine ⟨grounded, ?_, ?_⟩
    · intro d member
      have unshadowed := List.find?_eq_none.1 free d member
      simpa [Machine.isBuiltin, Bindings.contains] using unshadowed
    · intro d member
      refine ⟨m.origin, get?_insertAll ?_ (List.mem_map.2 ⟨d, member, rfl⟩)⟩
      rwa [entries, List.map_map]

theorem mem_fieldsFrom (type : String) (index : Nat) (params : List Param)
    (i : Fin params.length) :
    ⟨type, (params.get i).name, index + i, (params.get i).type⟩ ∈ fieldsFrom type index params := by
  induction params generalizing index with
  | nil => exact i.elim0
  | cons p params ih =>
    cases i using Fin.cases with
    | zero => exact List.mem_cons_self
    | succ i =>
      have later := ih (index + 1) i
      rw [Nat.add_assoc, Nat.add_comm 1] at later
      exact List.mem_cons_of_mem _ later

section

variable (member : s ∈ decl.structs)
include member

theorem mem_operationsAt_of_mem_members {d : DataOp Value} (own : d ∈ members (decl.typesAt m) s) :
    d ∈ decl.operationsAt m :=
  List.mem_append_right _ (List.mem_flatMap.2 ⟨s, member, own⟩)

theorem construct_mem :
    ⟨s.constructorName, .construct s.name s.fields (decl.typesAt m)⟩ ∈ decl.operationsAt m :=
  mem_operationsAt_of_mem_members member List.mem_cons_self

theorem mem_operationsAt_of_mem_accessors {d : DataOp Value} (i : s.Place)
    (own : d ∈ accessors (decl.typesAt m) s.constructorName (s.field i)) :
    d ∈ decl.operationsAt m := by
  apply mem_operationsAt_of_mem_members member
  exact List.mem_cons_of_mem _ (List.mem_flatMap.2 ⟨_, mem_fieldsFrom _ _ _ i, own⟩)

theorem get_mem (i : s.Place) : ⟨s.getterName i, .get (s.field i)⟩ ∈ decl.operationsAt m := by
  apply mem_operationsAt_of_mem_accessors member i
  exact List.mem_cons_of_mem _ (List.mem_cons_of_mem _ List.mem_cons_self)

theorem set_mem (i : s.Place) :
    ⟨s.setterName i, .set (s.field i) (decl.typesAt m)⟩ ∈ decl.operationsAt m :=
  mem_operationsAt_of_mem_accessors member i List.mem_cons_self

/-- Predicates that hold of the instances of a struct: its own, and in a union that of the union. -/
theorem predicate_mem {type : String} (own : type = s.name ∨ type = decl.name) :
    ∃ d ∈ decl.operationsAt m, d.name = predicateName type ∧
      ∀ id values, d.action.test? (s.instanceOf id values) = some true := by
  suffices found : ∃ d ∈ decl.predicates, d.name = predicateName type ∧
      ∀ id values, d.action.test? (s.instanceOf id values) = some true by
    obtain ⟨d, inside, holds⟩ := found
    exact ⟨d, List.mem_append_left _ inside, holds⟩
  cases decl with
  | struct t =>
    obtain rfl : s = t := List.mem_singleton.1 member
    obtain rfl : type = s.name := own.elim id id
    refine ⟨_, List.mem_singleton.2 rfl, rfl, fun id values => ?_⟩
    simp [DataAction.test?]
  | union name variants =>
    rcases own with rfl | rfl
    · refine ⟨_, List.mem_append_left _ (List.mem_map.2 ⟨s, member, rfl⟩), rfl, ?_⟩
      intro id values
      simp [DataAction.test?]
    · refine ⟨_, List.mem_append_right _ (List.mem_singleton.2 rfl), rfl, ?_⟩
      intro id values
      have known : s.name ∈ variants.map Struct.name := List.mem_map.2 ⟨s, member, rfl⟩
      simpa [DataAction.test?] using known

end

end Declaration

/-! ### Running the operations -/

namespace Operands

theorem pop_push {s : Operands} (grounded : s.floor ≤ s.count) (v : Value) :
    (s.push v).pop = .ok (v, s) := by
  have accessible : (s.push v).accessible ≠ 0 := by
    change s.count + 1 - s.floor ≠ 0
    omega
  have popped : (s.push v).items.pop? = some (v, s.items) := Stack.pop?_eq_some_iff.2 rfl
  rw [pop, if_neg accessible, popped]
  rfl

end Operands

namespace Machine

variable {m : Machine}

theorem given_append (args : List Value) (v : Value) :
    m.given (args ++ [v]) = { m.given args with operands := (m.given args).operands.push v } := by
  simp [given]

theorem floor_given (args : List Value) : (m.given args).operands.floor = m.operands.floor := by
  induction args using List.reverseRecOn with
  | nil => rfl
  | append_singleton args v ih =>
    rw [given_append]
    exact ih

theorem count_given (args : List Value) :
    (m.given args).operands.count = m.operands.count + args.length := by
  induction args using List.reverseRecOn with
  | nil => rfl
  | append_singleton args v ih =>
    rw [given_append, Operands.count_push, ih, List.length_append, List.length_singleton,
      Nat.add_assoc]

theorem grounded_given (grounded : m.operands.floor ≤ m.operands.count) (args : List Value) :
    (m.given args).operands.floor ≤ (m.given args).operands.count := by
  rw [floor_given, count_given]
  exact Nat.le_add_right_of_le grounded

end Machine

namespace Exec

variable {m : Machine}

theorem pop_given (grounded : m.operands.floor ≤ m.operands.count) (args : List Value) (v : Value) :
    pop (m.given (args ++ [v])) = .ok v (m.given args) := by
  have popped := Operands.pop_push (Machine.grounded_given grounded args) v
  rw [Machine.given_append, pop]
  simp only [popped]

theorem popMany_given (grounded : m.operands.floor ≤ m.operands.count) (args : List Value) :
    popMany args.length (m.given args) = .ok args m := by
  induction args using List.reverseRecOn with
  | nil => rfl
  | append_singleton args v ih =>
    rw [List.length_append, List.length_singleton, popMany]
    simp only [Bind.bind, EStateM.bind, pop_given grounded, ih]
    rfl

/-- A bound operation that hands over to nothing runs when its name does. -/
theorem resolve_plain {d : DataOp Value} {ops : List (DataOp Value)} {x : Exec Unit}
    (hosts : m.Hosts ops) (member : d ∈ ops) (plain : dataOp d = Exec.plain x) (args : List Value) :
    resolve d.name (m.given args) = x (m.given args) := by
  obtain ⟨origin, bound⟩ := hosts.bound d member
  have registry : (m.given args).registry.get? d.name = none := hosts.unregistered d member
  have scopes : (m.given args).scopes.get? d.name = some (.op (.data d) origin) := bound
  simp only [resolve, Bind.bind, EStateM.bind, get_apply, registry, scopes]
  exact invokeOperation_of_plain (o := .data d) plain (m.given args)

section

variable {s : Struct} {types : Scope} {i : s.Place} {v : Value}

/-- Writing a field checks the value as the constructor does. -/
theorem checkField_of_accepts (accepts : s.Accepts types m i v) :
    checkField (s.field i) types v m = .ok () m := by
  unfold Struct.Accepts Param.check at accepts
  unfold checkField Struct.field
  dsimp only
  split at accepts
  · next none =>
    rw [none]
    rfl
  · next type some =>
    rw [some]
    split at accepts
    · next verdict =>
      simp only [Bind.bind, EStateM.bind, get_apply, verdict, ofExcept]
      rfl
    · cases accepts
    · cases accepts

theorem checkField_of_not_accepts (refuses : ¬ s.Accepts types m i v) :
    ∃ text, checkField (s.field i) types v m = .error (.error (.typeMismatch text)) m := by
  unfold Struct.Accepts Param.check at refuses
  unfold checkField Struct.field
  dsimp only
  split at refuses
  · exact absurd rfl refuses
  · next type some =>
    rw [some]
    simp only [Bind.bind, EStateM.bind, get_apply]
    split at refuses
    · exact absurd rfl refuses
    · next verdict =>
      rw [verdict]
      exact ⟨_, rfl⟩
    · next e failed =>
      obtain rfl := checkType_eq_error failed
      rw [failed]
      exact ⟨_, rfl⟩

/-- An instance shows its parts and the value of a field. -/
theorem popInstance_given (grounded : m.operands.floor ≤ m.operands.count) (operator : String)
    {values : List Value} {current : Value} (found : values[i.val]? = some current) (id : Nat) :
    popInstance operator (s.field i) (m.given [s.instanceOf id values]) =
      .ok (.sym instanceTag :: .sym s.name :: values, current) m := by
  have popped := pop_given grounded [] (s.instanceOf id values)
  rw [List.nil_append] at popped
  have owner : ((s.instanceOf id values).instanceType? == some s.name) = true := by simp
  have part : (.sym instanceTag :: .sym s.name :: values)[firstField + i.val]? = some current := by
    rw [firstField, Nat.add_comm]
    exact found
  simp only [popInstance, popAs, Bind.bind, EStateM.bind, popped, Struct.field]
  rw [owner]
  simp only [Struct.instanceOf, part]
  rfl

end

/-- Checking a list of arguments changes nothing, and all of them have been accepted if it ends. -/
theorem collectInto_eq_ok_iff {types : Scope} {params : List Param} {values : List Value}
    (length : values.length = params.length) {m' : Machine} {bound : List (String × Value)} :
    collectInto types params values m = .ok bound m' ↔
      m' = m ∧ bound = (params.map Param.name).zip values ∧
        List.Forall₂ (fun p v => p.check types m.scopes.active v = .ok ()) params values := by
  induction params generalizing values bound m' with
  | nil =>
    obtain rfl : values = [] := List.eq_nil_of_length_eq_zero length
    constructor
    · intro ran
      cases ran
      exact ⟨rfl, rfl, .nil⟩
    · rintro ⟨rfl, rfl, _⟩
      rfl
  | cons p params ih =>
    obtain ⟨v, values, rfl⟩ := List.exists_cons_of_length_eq_add_one length
    have length' : values.length = params.length := Nat.succ.inj length
    rw [List.forall₂_cons]
    cases checked : p.check types m.scopes.active v with
    | error e =>
      rw [collectInto_of_refused checked]
      refine iff_of_false ?_ ?_
      · rintro ⟨⟩
      · rintro ⟨_, _, ⟨⟩, _⟩
    | ok _ =>
      rw [collectInto_of_accepted checked]
      constructor
      · intro ran
        obtain ⟨rest, mid, ran', last⟩ := bind_eq_ok ran
        obtain ⟨rfl, rfl, all⟩ := (ih length').1 ran'
        cases last
        exact ⟨rfl, rfl, rfl, all⟩
      · rintro ⟨rfl, rfl, _, all⟩
        have ran := (ih length').2 ⟨rfl, rfl, all⟩
        simp only [Bind.bind, EStateM.bind, ran]
        rfl

theorem takeArguments_given (grounded : m.operands.floor ≤ m.operands.count) (args : List Value) :
    takeArguments args.length (m.given args) = .ok args m := by
  have enough : ¬ (m.given args).operands.accessible < args.length := by
    rw [Operands.accessible, Machine.count_given, Machine.floor_given]
    omega
  simp only [takeArguments, Bind.bind, EStateM.bind, get_apply]
  rw [if_neg enough]
  exact popMany_given grounded args

end Exec

/-! ### What the operations of a struct yield -/

section

variable {decl : Declaration} {m n : Machine} {s : Struct} {i : s.Place} {v : Value}

theorem Struct.accepts_iff {types : Scope} (alike : s.Alike types m n) :
    s.Accepts types m i v ↔ s.Accepts types n i v := by
  unfold Accepts Param.check
  cases declared : (s.param i).type with
  | none => exact Iff.rfl
  | some type => simp only [checkType, alike i type declared]

section

variable {values : List Value} (hosts : n.Hosts (decl.operationsAt m)) (member : s ∈ decl.structs)
include hosts member

theorem Machine.Hosts.yields_get (found : values[i.val]? = some v) (id : Nat) :
    n.Yields (s.getterName i) [s.instanceOf id values] v := by
  refine ⟨n.nextId, ?_⟩
  rw [Exec.resolve_plain hosts (Declaration.get_mem member i) rfl]
  have popped := Exec.popInstance_given hosts.grounded (s.getterName i) found id
  simp only [Bind.bind, EStateM.bind, popped]
  rfl

theorem Machine.Hosts.resolve_set {old : Value} (found : values[i.val]? = some old) (id : Nat)
    (v : Value) :
    Exec.resolve (s.setterName i) (n.given [s.instanceOf id values, v]) =
      Exec.writeField (.sym instanceTag :: .sym s.name :: values) (s.field i) (decl.typesAt m) v
        n := by
  rw [Exec.resolve_plain hosts (Declaration.set_mem member i) rfl]
  have top := Exec.pop_given hosts.grounded [s.instanceOf id values] v
  rw [List.singleton_append] at top
  have popped := Exec.popInstance_given hosts.grounded (s.setterName i) found id
  simp only [Bind.bind, EStateM.bind, top, popped]

theorem Machine.Hosts.yields_set (inside : i.val < values.length)
    (accepts : s.Accepts (decl.typesAt m) n i v) (id : Nat) :
    n.Yields (s.setterName i) [s.instanceOf id values, v]
      (s.instanceOf n.nextId (values.set i.val v)) := by
  refine ⟨n.nextId + 1, ?_⟩
  rw [hosts.resolve_set member (List.getElem?_eq_getElem inside) id]
  have place : (s.field i).index = i.val + 1 + 1 := Nat.add_comm 2 i.val
  simp only [Exec.writeField, Bind.bind, EStateM.bind, Exec.checkField_of_accepts accepts, place]
  rfl

end

theorem Exec.dataOp_of_test? {d : DataOp Value} {verdict : Bool}
    (test : d.action.test? v = some verdict) :
    dataOp d = plain (unary fun v => .ok (.bool ((d.action.test? v).getD false))) := by
  obtain ⟨name, action⟩ := d
  cases action with
  | isInstance => rfl
  | isVariant => rfl
  | _ => cases test

theorem Machine.Hosts.yields_predicate (hosts : n.Hosts (decl.operationsAt m))
    (member : s ∈ decl.structs) {type : String} (own : type = s.name ∨ type = decl.name) (id : Nat)
    (values : List Value) :
    n.Yields (predicateName type) [s.instanceOf id values] (.bool true) := by
  obtain ⟨d, inside, name, holds⟩ := Declaration.predicate_mem member own
  refine ⟨n.nextId, ?_⟩
  rw [← name, Exec.resolve_plain hosts inside (Exec.dataOp_of_test? (holds id values))]
  have popped := Exec.pop_given hosts.grounded [] (s.instanceOf id values)
  rw [List.nil_append] at popped
  simp only [Exec.unary, Bind.bind, EStateM.bind, popped, holds]
  rfl

theorem map_snd_zip_names {params : List Param} {values : List Value}
    (length : values.length = params.length) :
    ((params.map Param.name).zip values).map Prod.snd = values := by
  apply List.map_snd_zip
  simp [length]

/-- The constructor takes as many arguments as there are fields, if each field accepts its own. -/
theorem Machine.Hosts.yields_construct (hosts : n.Hosts (decl.operationsAt m))
    (member : s ∈ decl.structs) {args : List Value}
    (accepts : List.Forall₂ (fun p v => p.check (decl.typesAt m) n.scopes.active v = .ok ())
      s.fields.params args) :
    n.Yields s.constructorName args (s.instanceOf n.nextId args) := by
  have length : args.length = s.fields.params.length := accepts.length_eq.symm
  refine ⟨n.nextId + 1, ?_⟩
  rw [Exec.resolve_plain hosts (Declaration.construct_mem member) rfl]
  have taken := Exec.takeArguments_given hosts.grounded args
  rw [length] at taken
  have collected := (Exec.collectInto_eq_ok_iff length).2 ⟨rfl, rfl, accepts⟩
  simp only [Exec.collect, Signature.arity, Bind.bind, EStateM.bind, taken, collected,
    map_snd_zip_names length]
  rfl

/-- Only accepted arguments, one for each field, are made into an instance. -/
theorem Machine.Hosts.of_yields_construct (hosts : n.Hosts (decl.operationsAt m))
    (member : s ∈ decl.structs) {args : List Value} {p : Value}
    (built : n.Yields s.constructorName args p) :
    List.Forall₂ (fun p v => p.check (decl.typesAt m) n.scopes.active v = .ok ())
      s.fields.params args ∧ ∃ id, p = s.instanceOf id args := by
  obtain ⟨next, ran⟩ := built
  rw [Exec.resolve_plain hosts (Declaration.construct_mem member) rfl] at ran
  obtain ⟨bound, mid, collected, pushed⟩ := Exec.bind_eq_ok ran
  obtain ⟨values, mid', taken, checked⟩ := Exec.bind_eq_ok collected
  obtain ⟨spends, _, arity⟩ := Exec.of_takeArguments_eq_ok taken
  have count := spends.count
  obtain ⟨rfl, rfl, accepts⟩ := (Exec.collectInto_eq_ok_iff arity).1 checked
  -- One value stands where the arguments stood, so as many were taken as had been given.
  have length : args.length = s.fields.arity := by
    have height : mid.operands.count + 1 = n.operands.count + 1 := by
      injection pushed with _ same
      exact congrArg (fun k => k.operands.count) same
    rw [Machine.count_given] at count
    omega
  rw [← length, Exec.takeArguments_given hosts.grounded] at taken
  cases taken
  refine ⟨accepts, n.nextId, ?_⟩
  injection pushed with _ same
  have tops := congrArg (fun k => k.operands.items.toList.head?) same
  rw [map_snd_zip_names length] at tops
  exact (Option.some.inj tops).symm

/-- A machine in which a name is run gives one value. -/
theorem Machine.Yields.unique {name : String} {args : List Value} {x y : Value}
    (first : n.Yields name args x) (second : n.Yields name args y) : x = y := by
  obtain ⟨_, first⟩ := first
  obtain ⟨_, second⟩ := second
  injection first.symm.trans second with _ same
  exact Option.some.inj (congrArg (fun k => k.operands.items.toList.head?) same)

theorem Machine.Hosts.accepts_of_sets (hosts : n.Hosts (decl.operationsAt m))
    (member : s ∈ decl.structs) {values : List Value} (inside : i.val < values.length) {id : Nat}
    {q : Value} (written : s.Sets n i (s.instanceOf id values) v q) :
    s.Accepts (decl.typesAt m) n i v ∧ q = s.instanceOf n.nextId (values.set i.val v) := by
  have accepts : s.Accepts (decl.typesAt m) n i v := by
    by_contra refuses
    obtain ⟨text, failed⟩ := Exec.checkField_of_not_accepts refuses
    obtain ⟨next, ran⟩ := written
    rw [hosts.resolve_set member (List.getElem?_eq_getElem inside)] at ran
    simp only [Exec.writeField, Bind.bind, EStateM.bind, failed] at ran
    cases ran
  exact ⟨accepts, written.unique (hosts.yields_set member inside accepts id)⟩

theorem Machine.Hosts.resolve_set_of_not_accepts (hosts : n.Hosts (decl.operationsAt m))
    (member : s ∈ decl.structs) {values : List Value} (inside : i.val < values.length)
    (refuses : ¬ s.Accepts (decl.typesAt m) n i v) (id : Nat) :
    ∃ text, Exec.resolve (s.setterName i) (n.given [s.instanceOf id values, v]) =
      .error (.error (.typeMismatch text)) n := by
  obtain ⟨text, failed⟩ := Exec.checkField_of_not_accepts refuses
  refine ⟨text, ?_⟩
  rw [hosts.resolve_set member (List.getElem?_eq_getElem inside)]
  simp only [Exec.writeField, Bind.bind, EStateM.bind, failed]

theorem Exec.dataDef_given (grounded : m.operands.floor ≤ m.operands.count) {name : String}
    {body : Value} (read : Declaration.read name body = .ok decl) :
    dataDef (m.given [.sym name, body]) = change (·.declare decl) m := by
  have top := pop_given grounded [.sym name] body
  have next := pop_given grounded [] (.sym name)
  rw [List.singleton_append] at top
  rw [List.nil_append] at next
  simp only [dataDef, popName, popAs, Bind.bind, EStateM.bind, Pure.pure, EStateM.pure, top, next,
    read]
  rfl

end

/-! ### Instances as records -/

/-- The same parts, whatever the identities. -/
def Value.SameParts (p q : Value) : Prop :=
  ∃ id id' items, p = .array id items ∧ q = .array id' items

namespace Struct

/-- The states in which a declaration is used: its operations are found, and the types of the fields
mean what they mean to `a`. -/
structure Fits (s : Struct) (decl : Declaration) (m a n : Machine) : Prop where
  hosts : n.Hosts (decl.operationsAt m)
  alike : s.Alike (decl.typesAt m) a n

/-- The instances made by the constructor and then changed by setters, each time in some state. -/
inductive Arises (s : Struct) (fits : Machine → Prop) : Value → Prop
  | built {n args p} : fits n → n.Yields s.constructorName args p → Arises s fits p
  | written {n i p x q} : Arises s fits p → fits n → s.Sets n i p x q → Arises s fits q

/-- One value for each field, accepted there. -/
def TakesAll (s : Struct) (accepts : s.Place → Value → Prop) (values : List Value) : Prop :=
  values.length = s.fields.arity ∧ ∀ i x, values[i.val]? = some x → accepts i x

/-- Constructor, getters and setters together are those of a record. -/
structure IsRecord (s : Struct) (types : List String) (fits : Machine → Prop)
    (accepts : s.Place → Value → Prop) : Prop where
  build : ∀ n args, fits n →
    ((∃ p, n.Yields s.constructorName args p) ↔ s.TakesAll accepts args)
  get_build : ∀ n n' args p i, fits n → fits n' → n.Yields s.constructorName args p →
    ∃ x, args[i.val]? = some x ∧ s.Gets n' i p x
  get_set : ∀ n n' p i x, fits n → fits n' → s.Arises fits p → accepts i x →
    ∃ q, s.Sets n i p x q ∧ s.Gets n' i q x
  get_set_other : ∀ n n' n'' p i j x, fits n → fits n' → fits n'' → s.Arises fits p → i ≠ j →
    accepts i x → ∃ q y, s.Sets n i p x q ∧ s.Gets n' j p y ∧ s.Gets n'' j q y
  set_get : ∀ n n' p i, fits n → fits n' → s.Arises fits p →
    ∃ x q, s.Gets n i p x ∧ s.Sets n' i p x q ∧ q.SameParts p
  set_set : ∀ n n' n'' p i x y, fits n → fits n' → fits n'' → s.Arises fits p → accepts i x →
    accepts i y → ∃ q r r', s.Sets n i p x q ∧ s.Sets n' i q y r ∧ s.Sets n'' i p y r' ∧
      r.SameParts r'
  set_comm : ∀ n n' k k' p i j x y, fits n → fits n' → fits k → fits k' → s.Arises fits p →
    i ≠ j → accepts i x → accepts j y → ∃ q r q' r', s.Sets n i p x q ∧ s.Sets n' j q y r ∧
      s.Sets k j p y q' ∧ s.Sets k' i q' x r' ∧ r.SameParts r'
  /-- Mark, type and number of parts stay, and so do the predicates and the types of the fields. -/
  kept : ∀ n p, fits n → s.Arises fits p →
    (∃ id values, p = s.instanceOf id values ∧ values.length = s.fields.arity) ∧
    (∀ type ∈ types, n.Yields (predicateName type) [p] (.bool true)) ∧
    ∀ i, ∃ x, s.Gets n i p x ∧ accepts i x
  /-- Nothing is left of the instance or the value if the field does not take the value. -/
  refused : ∀ n p i x, fits n → s.Arises fits p → ¬ accepts i x →
    ∃ text, Exec.resolve (s.setterName i) (n.given [p, x]) =
      .error (.error (.typeMismatch text)) n

section

variable {s : Struct} {decl : Declaration} {m a n : Machine}

theorem forall₂_check_iff {types : Scope} {values : List Value} :
    List.Forall₂ (fun p v => p.check types n.scopes.active v = .ok ()) s.fields.params values ↔
      s.TakesAll (s.Accepts types n) values := by
  rw [List.forall₂_iff_get]
  constructor
  · rintro ⟨length, checks⟩
    refine ⟨length.symm, fun i x found => ?_⟩
    obtain ⟨inside, rfl⟩ := List.getElem?_eq_some_iff.1 found
    exact checks i.val i.isLt inside
  · rintro ⟨length, accepts⟩
    refine ⟨length.symm, fun i inside inside' => ?_⟩
    exact accepts ⟨i, inside⟩ _ (List.getElem?_eq_getElem inside')

theorem Fits.takesAll_iff (fits : s.Fits decl m a n) {values : List Value} :
    s.TakesAll (s.Accepts (decl.typesAt m) a) values ↔
      s.TakesAll (s.Accepts (decl.typesAt m) n) values := by
  unfold TakesAll
  simp only [accepts_iff fits.alike]

theorem TakesAll.lt_length {accepts : s.Place → Value → Prop} {values : List Value}
    (all : s.TakesAll accepts values) (i : s.Place) : i.val < values.length :=
  all.1.symm ▸ i.isLt

theorem TakesAll.set {accepts : s.Place → Value → Prop} {values : List Value}
    (all : s.TakesAll accepts values) {i : s.Place} {x : Value} (accepted : accepts i x) :
    s.TakesAll accepts (values.set i.val x) := by
  obtain ⟨length, each⟩ := all
  refine ⟨by rw [List.length_set, length], fun j y found => ?_⟩
  rw [List.getElem?_set] at found
  split at found
  · next same =>
    obtain rfl : i = j := Fin.ext same
    split at found
    · cases found
      exact accepted
    · cases found
  · exact each j y found

/-- Every instance that arises has an accepted value in each field. -/
theorem Arises.holds (member : s ∈ decl.structs) {p : Value}
    (arises : s.Arises (s.Fits decl m a) p) :
    ∃ id values, p = s.instanceOf id values ∧ s.TakesAll (s.Accepts (decl.typesAt m) a) values := by
  induction arises with
  | built fits built =>
    obtain ⟨checks, id, rfl⟩ := fits.hosts.of_yields_construct member built
    exact ⟨id, _, rfl, fits.takesAll_iff.2 (forall₂_check_iff.1 checks)⟩
  | @written n i _ x _ _ fits written ih =>
    obtain ⟨id, values, rfl, all⟩ := ih
    obtain ⟨accepts, rfl⟩ := fits.hosts.accepts_of_sets member (all.lt_length i) written
    exact ⟨_, _, rfl, all.set ((accepts_iff fits.alike).2 accepts)⟩

theorem Fits.sets (fits : s.Fits decl m a n) (member : s ∈ decl.structs) {values : List Value}
    (all : s.TakesAll (s.Accepts (decl.typesAt m) a) values) {i : s.Place} {x : Value}
    (accepts : s.Accepts (decl.typesAt m) a i x) (id : Nat) :
    s.Sets n i (s.instanceOf id values) x (s.instanceOf n.nextId (values.set i.val x)) :=
  fits.hosts.yields_set member (all.lt_length i) ((accepts_iff fits.alike).1 accepts) id

theorem Fits.gets (fits : s.Fits decl m a n) (member : s ∈ decl.structs) {values : List Value}
    {i : s.Place} {x : Value} (found : values[i.val]? = some x) (id : Nat) :
    s.Gets n i (s.instanceOf id values) x :=
  fits.hosts.yields_get member found id

theorem sameParts_instanceOf (s : Struct) (id id' : Nat) (values : List Value) :
    (s.instanceOf id values).SameParts (s.instanceOf id' values) :=
  ⟨id, id', _, rfl, rfl⟩

/-- The operations of a struct are those of a record. -/
theorem isRecord (member : s ∈ decl.structs) (m a : Machine) :
    s.IsRecord [s.name, decl.name] (s.Fits decl m a) (s.Accepts (decl.typesAt m) a) where
  build n args fits := by
    rw [fits.takesAll_iff, ← forall₂_check_iff]
    constructor
    · rintro ⟨p, built⟩
      exact (fits.hosts.of_yields_construct member built).1
    · intro checks
      exact ⟨_, fits.hosts.yields_construct member checks⟩
  get_build n n' args p i fits fits' built := by
    obtain ⟨checks, id, rfl⟩ := fits.hosts.of_yields_construct member built
    have all := forall₂_check_iff.1 checks
    have found := List.getElem?_eq_getElem (all.lt_length i)
    exact ⟨_, found, fits'.gets member found id⟩
  get_set n n' p i x fits fits' arises accepts := by
    obtain ⟨id, values, rfl, all⟩ := arises.holds member
    refine ⟨_, fits.sets member all accepts id, fits'.gets member ?_ _⟩
    rw [List.getElem?_set_self (all.lt_length i)]
  get_set_other n n' n'' p i j x fits fits' fits'' arises other accepts := by
    obtain ⟨id, values, rfl, all⟩ := arises.holds member
    have found := List.getElem?_eq_getElem (all.lt_length j)
    refine ⟨_, _, fits.sets member all accepts id, fits'.gets member found id,
      fits''.gets member ?_ _⟩
    rw [List.getElem?_set_ne (Fin.val_ne_of_ne other), found]
  set_get n n' p i fits fits' arises := by
    obtain ⟨id, values, rfl, all⟩ := arises.holds member
    have found := List.getElem?_eq_getElem (all.lt_length i)
    have written := fits'.sets member all (all.2 i _ found) id
    rw [List.set_getElem_self] at written
    exact ⟨_, _, fits.gets member found id, written, s.sameParts_instanceOf _ _ _⟩
  set_set n n' n'' p i x y fits fits' fits'' arises accepts accepts' := by
    obtain ⟨id, values, rfl, all⟩ := arises.holds member
    have second := fits'.sets member (all.set accepts) accepts' n.nextId
    rw [List.set_set] at second
    exact ⟨_, _, _, fits.sets member all accepts id, second, fits''.sets member all accepts' id,
      s.sameParts_instanceOf _ _ _⟩
  set_comm n n' k k' p i j x y fits fits' fitsK fitsK' arises other accepts accepts' := by
    obtain ⟨id, values, rfl, all⟩ := arises.holds member
    have second := fits'.sets member (all.set accepts) accepts' n.nextId
    rw [List.set_comm _ _ (Fin.val_ne_of_ne other)] at second
    exact ⟨_, _, _, _, fits.sets member all accepts id, second,
      fitsK.sets member all accepts' id, fitsK'.sets member (all.set accepts') accepts k.nextId,
      s.sameParts_instanceOf _ _ _⟩
  kept n p fits arises := by
    obtain ⟨id, values, rfl, all⟩ := arises.holds member
    refine ⟨⟨id, values, rfl, all.1⟩, fun type own => ?_, fun i => ?_⟩
    · exact fits.hosts.yields_predicate member (by simpa using own) id values
    · have found := List.getElem?_eq_getElem (all.lt_length i)
      exact ⟨_, fits.gets member found id, all.2 i _ found⟩
  refused n p i x fits arises refuses := by
    obtain ⟨id, values, rfl, all⟩ := arises.holds member
    refine fits.hosts.resolve_set_of_not_accepts member (all.lt_length i) ?_ id
    rwa [← accepts_iff fits.alike]

end

end Struct

/-- Once a declaration has been made, the operations of each of its structs are found by their names
and are those of a record, in all states that agree about the types of the fields. -/
theorem accessors_lawful {m made : Machine} {name : String} {body : Value} {decl : Declaration}
    {s : Struct} (grounded : m.operands.floor ≤ m.operands.count)
    (accepted : Declaration.read name body = .ok decl)
    (declared : Exec.dataDef (m.given [.sym name, body]) = .ok () made)
    (distinct : ((decl.operationsAt m).map DataOp.name).Nodup) (member : s ∈ decl.structs) :
    made.Hosts (decl.operationsAt m) ∧
      ∀ a, s.IsRecord [s.name, decl.name] (s.Fits decl m a) (s.Accepts (decl.typesAt m) a) := by
  rw [Exec.dataDef_given grounded accepted] at declared
  unfold Exec.change at declared
  split at declared
  · next bound =>
    cases declared
    exact ⟨Declaration.hosts_of_declare bound distinct grounded, Struct.isRecord member m⟩
  · cases declared

/-- The fields `(x :Int, y)`. -/
def Struct.point : Struct := ⟨"Point", ⟨[⟨"x", some "Int"⟩, ⟨"y", none⟩], none⟩⟩

/-- A union in which `Point` stands beside a struct without fields. -/
def Declaration.shape : Declaration := .union "Shape" [⟨"Dot", .empty⟩, .point]

theorem accessors_lawful_point :
    ∃ made p q,
      Exec.dataDef ((Machine.new .standard).given [.sym "Shape", .array 0 [.sym "Dot",
        .signature .empty, .sym "Point", .signature Struct.point.fields]]) = .ok () made ∧
      made.Yields "point" [.int 3, .nil] p ∧ made.Yields "point-x-set" [p, .int 4] q ∧
      made.Yields "point-x" [q] (.int 4) := by
  have member : Struct.point ∈ Declaration.shape.structs :=
    List.mem_cons_of_mem _ List.mem_cons_self
  have accepted : Declaration.read "Shape" (.array 0 [.sym "Dot", .signature .empty, .sym "Point",
      .signature Struct.point.fields]) = .ok .shape := by rfl
  have distinct : ((Declaration.shape.operationsAt (.new .standard)).map DataOp.name).Nodup := by
    decide +kernel
  have grounded : (Machine.new .standard).operands.floor ≤ (Machine.new .standard).operands.count :=
    Nat.le_refl 0
  have free : ((Declaration.shape.operationsAt (.new .standard)).all fun d =>
      !(Machine.new .standard).isBuiltin d.name) = true := by decide +kernel
  obtain ⟨made, declared⟩ := Declaration.exists_declare free
  have ran := Exec.dataDef_given grounded accepted
  simp only [Exec.change, declared] at ran
  obtain ⟨hosts, record⟩ := accessors_lawful grounded accepted ran distinct member
  have fits : Struct.point.Fits .shape (.new .standard) made made := ⟨hosts, fun _ _ _ => rfl⟩
  have taken (types : Scope) :
      Struct.point.TakesAll (Struct.point.Accepts types made) [.int 3, .nil] := by
    refine ⟨rfl, ?_⟩
    rintro ⟨i, lt⟩ x found
    cases i with
    | zero =>
      cases found
      rfl
    | succ i =>
      cases i with
      | zero => rfl
      | succ i => exact absurd (Nat.lt_of_succ_lt_succ (Nat.lt_of_succ_lt_succ lt)) i.not_lt_zero
  obtain ⟨p, built⟩ := ((record made).build made _ fits).2 (taken _)
  obtain ⟨q, written, read⟩ := (record made).get_set made made p ⟨0, by decide⟩ (.int 4) fits fits
    (.built fits built) rfl
  have base : Struct.point.constructorName = "point" := by decide +kernel
  have getter : Struct.point.getterName ⟨0, by decide⟩ = "point-x" := by decide +kernel
  have setter : Struct.point.setterName ⟨0, by decide⟩ = "point-x-set" := by decide +kernel
  rw [base] at built
  rw [Struct.Sets, setter] at written
  rw [Struct.Gets, getter] at read
  exact ⟨made, p, q, ran, built, written, read⟩

end Catena
