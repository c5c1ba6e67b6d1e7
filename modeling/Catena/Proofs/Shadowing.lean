import Catena.Proofs.Floors
import Catena.Proofs.InPlace
import Catena.Proofs.Resolution

set_option autoImplicit false

/-!
Binding arguments and collecting them. Both take the same operands and check them in order, but
binding puts each argument into the scope in which the next one is checked. The two agree as long as
no parameter takes the name of the predicate that the type of a later parameter stands for. If one
does, the argument for it is asked instead of the predicate, and the outcome depends on it.
-/

namespace Catena

/-! ### Agreement -/

/-- Binding has come to what collecting the same arguments has come to, where `scope` is the scope
at the start: the collected pairs have been bound there in order, or both have failed alike. Apart
from the active scope the machines are the same. -/
def Agrees (scope : Scope) : EStateM.Result Signal Machine (List (String × Value)) →
    EStateM.Result Signal Machine Unit → Prop
  | .ok pairs m, .ok _ n => n = { m with scopes := ⟨scope.insertAll pairs, m.scopes.saved⟩ }
  | .error signal m, .error signal' n =>
    signal' = signal ∧ ∃ active, n = { m with scopes := ⟨active, m.scopes.saved⟩ }
  | _, _ => False

theorem Agrees.cons {scope : Scope} {m : Machine} {x : Exec (List (String × Value))}
    {y : EStateM.Result Signal Machine Unit} {name : String} {v : Value}
    (agrees : Agrees (scope.insert name v) (x m) y) :
    Agrees scope ((x >>= fun pairs => pure ((name, v) :: pairs)) m) y := by
  simp only [Bind.bind, EStateM.bind]
  cases collected : x m with
  | ok pairs m' =>
    rw [collected] at agrees
    cases y <;> exact agrees
  | error signal m' =>
    rw [collected] at agrees
    cases y <;> exact agrees

/-- The name of the first parameter hides the predicate that the type of the second stands for. -/
def Param.Shadows (p q : Param) : Prop :=
  ∃ type ∈ q.type, type ∉ Value.knownTypes ∧ p.name = predicateName type

instance (p q : Param) : Decidable (p.Shadows q) :=
  inferInstanceAs
    (Decidable (∃ type ∈ q.type, type ∉ Value.knownTypes ∧ p.name = predicateName type))

/-- No parameter hides the type of a later one. -/
def Signature.Unshadowed (s : Signature) : Prop :=
  s.params.Pairwise fun p q => ¬ p.Shadows q

instance (s : Signature) : Decidable s.Unshadowed :=
  inferInstanceAs (Decidable (s.params.Pairwise fun p q => ¬ p.Shadows q))

/-- The type of the parameter stands for the same in both scopes. -/
def Param.SeesAlike (p : Param) (scope scope' : Scope) : Prop :=
  ∀ type, p.type = some type → type ∉ Value.knownTypes →
    scope'.get? (predicateName type) = scope.get? (predicateName type)

theorem Param.SeesAlike.check_eq {p : Param} {scope scope' : Scope}
    (alike : p.SeesAlike scope scope') (v : Value) :
    p.check scope' scope' v = p.check scope scope v := by
  unfold Param.check
  cases declared : p.type with
  | none => rfl
  | some type =>
    have same : checkType scope' scope' type v = checkType scope scope type v := by
      by_cases known : type ∈ Value.knownTypes
      · obtain ⟨b, verdict⟩ := Value.exists_belongsTo? (v := v) known
        rw [checkType_of_belongsTo? verdict, checkType_of_belongsTo? verdict]
      · simp only [checkType, predicate?, alike type declared known]
    simp only [same]

theorem Param.SeesAlike.insert {p q : Param} {scope scope' : Scope}
    (alike : q.SeesAlike scope scope') (apart : ¬ p.Shadows q) (v : Value) :
    q.SeesAlike scope (scope'.insert p.name v) := by
  intro type declared foreign
  have other : p.name ≠ predicateName type := fun same => apart ⟨type, declared, foreign, same⟩
  rw [Bindings.get?_insert, if_neg other, alike type declared foreign]

namespace Exec

variable {m : Machine}

/-- The scope has what has been bound so far; the types that are still to be checked see nothing of
it. -/
theorem agrees_bindInto {params : List Param} (apart : params.Pairwise fun p q => ¬ p.Shadows q)
    {scope : Scope} (alike : ∀ p ∈ params, p.SeesAlike m.scopes.active scope)
    (values : List Value) :
    Agrees scope (collectInto m.scopes.active params values m)
      (bindInto params values { m with scopes := ⟨scope, m.scopes.saved⟩ }) := by
  induction params generalizing scope values with
  | nil => exact rfl
  | cons p params ih =>
    cases values with
    | nil => exact rfl
    | cons v values =>
      obtain ⟨first, apart⟩ := List.pairwise_cons.1 apart
      obtain ⟨here, others⟩ := List.forall_mem_cons.1 alike
      have rest := ih apart (fun q member => (others q member).insert (first q member) v) values
      have same := here.check_eq v
      cases checked : p.check m.scopes.active m.scopes.active v with
      | error e =>
        rw [collectInto_of_refused checked, bindInto_of_refused (same.trans checked)]
        exact ⟨rfl, scope, rfl⟩
      | ok _ =>
        rw [collectInto_of_accepted checked, bindInto_of_accepted (same.trans checked)]
        exact rest.cons

theorem agrees_bind {s : Signature} (apart : s.Unshadowed) (m : Machine) :
    Agrees m.scopes.active (collect s m.scopes.active m) (bind s m) := by
  simp only [collect, bind, Bind.bind, EStateM.bind]
  rcases takeArguments_cases s.arity m with ⟨_, failed⟩ | ⟨args, m', taken, spends, _⟩
  · rw [failed]
    exact ⟨rfl, m.scopes.active, rfl⟩
  · rw [taken]
    obtain rfl := spends.machine
    exact agrees_bindInto (m := { m with operands := m.operands.spend s.arity }) apart
      (fun _ _ _ _ _ => rfl) args

end Exec

/-! ### Hidden types -/

/-- An operation of a declaration; no other value can be asked about a value. -/
def Value.isDataOp : Value → Bool
  | .op (.data _) _ => true
  | _ => false

/-- A type whose predicate has been replaced by such a value is unknown. -/
theorem Param.check_of_hidden {p : Param} {type : String} {scope : Scope} {w : Value}
    (declared : p.type = some type) (foreign : type ∉ Value.knownTypes)
    (bound : scope.get? (predicateName type) = some w) (mute : w.isDataOp = false) (v : Value) :
    p.check scope scope v = .error (.unknownType type) := by
  have unknown : checkType scope scope type v = .error (.unknownType type) := by
    simp only [checkType, Value.belongsTo?_of_not_known foreign, predicate?, bound]
    cases w with
    | op o origin =>
      cases o with
      | builtin b => rfl
      | data d => cases mute
    | _ => rfl
  rw [Param.check, declared]
  simp only [unknown]

/-- Once a predicate is hidden, it stays so while such values are bound. -/
theorem not_fitInto_of_hidden {params : List Param} {values : List Value} {scope : Scope}
    {q : Param} {type : String} {w : Value} (mute : ∀ v ∈ values, v.isDataOp = false)
    (member : q ∈ params) (declared : q.type = some type) (foreign : type ∉ Value.knownTypes)
    (bound : scope.get? (predicateName type) = some w) (hides : w.isDataOp = false) :
    ¬ FitInto scope params values := by
  induction params generalizing values scope w with
  | nil => cases member
  | cons p params ih =>
    cases values with
    | nil => exact id
    | cons v values =>
      rintro ⟨checked, fits⟩
      obtain ⟨here, mute⟩ := List.forall_mem_cons.1 mute
      rcases List.mem_cons.1 member with rfl | member
      · cases (Param.check_of_hidden declared foreign bound hides v).symm.trans checked
      · by_cases same : p.name = predicateName type
        · exact ih mute member (by rw [Bindings.get?_insert, if_pos same]) here fits
        · exact ih mute member (by rw [Bindings.get?_insert, if_neg same, bound]) hides fits

theorem pairwise_of_fitInto {params : List Param} {values : List Value} {scope : Scope}
    (mute : ∀ v ∈ values, v.isDataOp = false) (fits : FitInto scope params values) :
    params.Pairwise fun p q => ¬ p.Shadows q := by
  induction params generalizing values scope with
  | nil => exact .nil
  | cons p params ih =>
    cases values with
    | nil => cases fits
    | cons v values =>
      obtain ⟨here, mute⟩ := List.forall_mem_cons.1 mute
      refine .cons (fun q member shadows => ?_) (ih mute fits.2)
      obtain ⟨type, declared, foreign, same⟩ := shadows
      have bound : (scope.insert p.name v).get? (predicateName type) = some v := by
        rw [Bindings.get?_insert, if_pos same]
      exact not_fitInto_of_hidden mute member declared foreign bound here fits.2

/-! ### A state in which all types are known -/

/-- There is a value of every type that the language knows. -/
theorem Value.exists_of_known {type : String} (known : type ∈ knownTypes) :
    ∃ v : Value, v.isDataOp = false ∧ v.belongsTo? type = some true := by
  simp only [knownTypes, plainTypes, List.cons_append, List.nil_append, List.mem_cons,
    List.not_mem_nil, or_false] at known
  rcases known with rfl | rfl | rfl | rfl | rfl | rfl | rfl | rfl | rfl | rfl | rfl | rfl | rfl |
    rfl | rfl | rfl
  · exact ⟨.int 0, rfl, rfl⟩
  · exact ⟨.int 0, rfl, rfl⟩
  · exact ⟨.quote 0 [], rfl, rfl⟩
  · exact ⟨.quote 0 [], rfl, rfl⟩
  · exact ⟨.quote 0 [], rfl, rfl⟩
  · exact ⟨.int 0, rfl, rfl⟩
  · exact ⟨.float 0, rfl, rfl⟩
  · exact ⟨.bool true, rfl, rfl⟩
  · exact ⟨.str "", rfl, rfl⟩
  · exact ⟨.sym "", rfl, rfl⟩
  · exact ⟨.nil, rfl, rfl⟩
  · exact ⟨.array 0 [], rfl, rfl⟩
  · exact ⟨.closure ⟨0, none, [], none, .empty⟩, rfl, rfl⟩
  · exact ⟨.op (.builtin ⟨"", .reply .nothing⟩) .none, rfl, rfl⟩
  · exact ⟨.signature .empty, rfl, rfl⟩
  · exact ⟨.error ⟨.stackEmpty, none⟩, rfl, rfl⟩

/-- The predicate of a type without a name. -/
def Value.nameless : Value := .op (.data ⟨"", .isInstance ""⟩) .none

/-- A scope in which each type of the parameters has that predicate. -/
def Signature.ofNameless (s : Signature) : Scope :=
  Bindings.empty.insertAll
    ((s.params.filterMap Param.type).map fun type => (predicateName type, .nameless))

theorem Bindings.get?_insertAll_const {b : Scope} {names : List String} {name : String} (v : Value)
    (member : name ∈ names) :
    (b.insertAll (names.map fun name => (name, v))).get? name = some v := by
  induction names generalizing b with
  | nil => cases member
  | cons first names ih =>
    by_cases later : name ∈ names
    · exact ih later
    · obtain rfl : name = first := (List.mem_cons.1 member).resolve_right later
      have others : name ∉ (names.map fun name => (name, v)).map Prod.fst := by
        simpa using later
      refine (Declaration.get?_insertAll_of_not_mem others).trans ?_
      rw [Bindings.get?_insert, if_pos rfl]

theorem Signature.get?_ofNameless {s : Signature} {p : Param} {type : String}
    (member : p ∈ s.params) (declared : p.type = some type) :
    s.ofNameless.get? (predicateName type) = some .nameless := by
  have names : predicateName type ∈ (s.params.filterMap Param.type).map predicateName :=
    List.mem_map_of_mem (List.mem_filterMap.2 ⟨p, member, declared⟩)
  have found := Bindings.get?_insertAll_const (b := .empty) .nameless names
  rwa [List.map_map] at found

/-- Each parameter accepts a value in such a scope. -/
theorem Param.exists_accepted {p : Param} {scope : Scope}
    (predicates : ∀ type, p.type = some type → scope.get? (predicateName type) = some .nameless) :
    ∃ v : Value, v.isDataOp = false ∧ p.check scope scope v = .ok () := by
  cases declared : p.type with
  | none => exact ⟨.nil, rfl, by rw [Param.check, declared]⟩
  | some type =>
    by_cases known : type ∈ Value.knownTypes
    · obtain ⟨v, mute, belongs⟩ := Value.exists_of_known known
      exact ⟨v, mute, (Param.check_iff declared (checkType_of_belongsTo? belongs)).2 rfl⟩
    · have checked : checkType scope scope type (.array 0 [.sym instanceTag, .sym ""]) = .ok true :=
        checkType_of_predicate known (predicates type declared) rfl
      exact ⟨_, rfl, (Param.check_iff declared checked).2 rfl⟩

theorem exists_accepted_values {params : List Param} {scope : Scope}
    (predicates : ∀ p ∈ params, ∀ type, p.type = some type →
      scope.get? (predicateName type) = some .nameless) :
    ∃ values, (∀ v ∈ values, v.isDataOp = false) ∧
      List.Forall₂ (fun p v => p.check scope scope v = .ok ()) params values := by
  induction params with
  | nil => exact ⟨[], List.forall_mem_nil _, .nil⟩
  | cons p params ih =>
    obtain ⟨here, others⟩ := List.forall_mem_cons.1 predicates
    obtain ⟨v, mute, accepted⟩ := Param.exists_accepted here
    obtain ⟨values, mutes, all⟩ := ih others
    exact ⟨v :: values, List.forall_mem_cons.2 ⟨mute, mutes⟩, .cons accepted all⟩

theorem Signature.unshadowed_of_agrees {s : Signature}
    (agrees : ∀ m, Agrees m.scopes.active (Exec.collect s m.scopes.active m) (Exec.bind s m)) :
    s.Unshadowed := by
  let m : Machine := { Machine.new .standard with scopes := ⟨s.ofNameless, []⟩ }
  have predicates : ∀ p ∈ s.params, ∀ type, p.type = some type →
      m.scopes.active.get? (predicateName type) = some .nameless :=
    fun _ member _ declared => s.get?_ofNameless member declared
  obtain ⟨values, mute, accepted⟩ := exists_accepted_values predicates
  have length : values.length = s.params.length := accepted.length_eq.symm
  have taken : Exec.takeArguments s.arity (m.given values) = .ok values m := by
    rw [Signature.arity, ← length]
    exact Exec.takeArguments_given (m := m) (Nat.le_refl 0) values
  have collected := (Exec.collectInto_eq_ok_iff (m := m) length).2 ⟨rfl, rfl, accepted⟩
  have outcome := agrees (m.given values)
  simp only [Exec.collect, Exec.bind, Bind.bind, EStateM.bind, taken] at outcome
  rcases Exec.bindInto_cases length m with ⟨fits, _⟩ | ⟨_, e, m', failed⟩
  · exact pairwise_of_fitInto mute fits
  · rw [failed] at outcome
    have started : (m.given values).scopes.active = m.scopes.active := rfl
    rw [started, collected] at outcome
    cases outcome

/-! ### Agreement and shadowing -/

/-- Collected arguments are the topmost operands, with the names of the parameters. -/
theorem Exec.of_collect_eq_ok {s : Signature} {types : Scope} {m m' : Machine}
    {pairs : List (String × Value)} (collected : Exec.collect s types m = .ok pairs m') :
    m.Spends s.arity m' ∧ pairs.map Prod.fst = s.params.map Param.name ∧
      m.operands.toList = m'.operands.toList ++ pairs.map Prod.snd := by
  obtain ⟨args, m₁, taken, checked⟩ := bind_eq_ok collected
  obtain ⟨spends, values, length⟩ := of_takeArguments_eq_ok taken
  obtain ⟨rfl, rfl, _⟩ := (collectInto_eq_ok_iff length).1 checked
  refine ⟨spends, ?_, by rw [map_snd_zip_names length, values]⟩
  exact List.map_fst_zip (by rw [List.length_map, length, Signature.arity])

/-- The topmost operands, counted from below, are found by looking from above. -/
theorem Operands.peek_of_append {s : Operands} {lower upper : List Value}
    (values : s.toList = lower ++ upper) (accessible : upper.length ≤ s.accessible) {i : Nat}
    {v : Value} (found : upper[i]? = some v) : s.peek (upper.length - (i + 1)) = .ok v := by
  obtain ⟨inside, _⟩ := List.getElem?_eq_some_iff.1 found
  rw [peek_eq_ok_iff, values, List.reverse_append]
  refine ⟨by omega, ?_⟩
  rw [List.getElem?_append_left (by rw [List.length_reverse]; omega),
    List.getElem?_reverse (by omega), ← found]
  congr 1
  omega

/-- Binding agrees with collecting in every state just for those signatures in which no parameter
has the name of the predicate of a later type. What is collected are the topmost operands, the last
parameter having the topmost. -/
theorem bind_agrees_iff (s : Signature) :
    ((∀ m, Agrees m.scopes.active (Exec.collect s m.scopes.active m) (Exec.bind s m)) ↔
      s.Unshadowed) ∧
    ∀ m pairs m', Exec.collect s m.scopes.active m = .ok pairs m' →
      m.Spends s.arity m' ∧ pairs.map Prod.fst = s.params.map Param.name ∧
        ∀ i entry, pairs[i]? = some entry → m.operands.peek (s.arity - (i + 1)) = .ok entry.2 := by
  refine ⟨⟨Signature.unshadowed_of_agrees, Exec.agrees_bind⟩, fun m pairs m' collected => ?_⟩
  obtain ⟨spends, names, values⟩ := Exec.of_collect_eq_ok collected
  refine ⟨spends, names, fun i entry found => ?_⟩
  have length : (pairs.map Prod.snd).length = s.arity := by
    rw [List.length_map, ← List.length_map (f := Prod.fst), names, List.length_map, Signature.arity]
  have place : (pairs.map Prod.snd)[i]? = some entry.2 := by rw [List.getElem?_map, found]; rfl
  have peeked := Operands.peek_of_append values (length ▸ spends.accessible) place
  rwa [length] at peeked

/-- A machine that knows a type `Point`, with these operands. -/
def Machine.pointing (operands : List Value) : Machine :=
  { Machine.new .standard with
    operands := ⟨.ofList operands.reverse, []⟩
    scopes := ⟨⟨[("point?", .op (.data ⟨"point?", .isInstance "Point"⟩) .none)]⟩, []⟩ }

/-- An instance without fields. -/
def Value.instanceOf (type : String) : Value := .array 0 [.sym instanceTag, .sym type]

/-- The signature `(x :Int, x, p :Point)`, where a name is bound twice. -/
theorem bind_agrees_iff_twice :
    let s : Signature := ⟨[⟨"x", some "Int"⟩, ⟨"x", none⟩, ⟨"p", some "Point"⟩], none⟩
    let m := Machine.pointing [.nil, .int 1, .int 2, .instanceOf "Point"]
    let pairs := [("x", .int 1), ("x", .int 2), ("p", .instanceOf "Point")]
    ∃ m', s.Unshadowed ∧ Exec.collect s m.scopes.active m = .ok pairs m' ∧
      Exec.bind s m =
        .ok () { m' with scopes := ⟨m.scopes.active.insertAll pairs, m'.scopes.saved⟩ } ∧
      m.operands.peek 1 = .ok (.int 2) := by
  intro s m pairs
  have unshadowed : s.Unshadowed := by decide
  have collected : Exec.collect s m.scopes.active m =
      .ok pairs { m with operands := m.operands.spend 3 } := by rfl
  obtain ⟨agreement, taken⟩ := bind_agrees_iff s
  have agrees := agreement.2 unshadowed m
  rw [collected] at agrees
  refine ⟨_, unshadowed, collected, ?_, (taken m pairs _ collected).2.2 1 _ rfl⟩
  cases bound : Exec.bind s m with
  | error signal m' =>
    rw [bound] at agrees
    cases agrees
  | ok _ m' =>
    rw [bound] at agrees
    rw [agrees]

/-- With the signature `(point?, p :Point)`, a number in the place of the predicate makes the type
unknown, and another predicate there admits what is no point. -/
theorem exists_shadowed_type :
    let s : Signature := ⟨[⟨"point?", none⟩, ⟨"p", some "Point"⟩], none⟩
    let round : Value := .op (.data ⟨"round?", .isInstance "Round"⟩) .none
    let m := Machine.pointing [.int 7, .instanceOf "Point"]
    let n := Machine.pointing [round, .instanceOf "Round"]
    (∃ m₁ m₂, Exec.collect s m.scopes.active m =
        .ok [("point?", .int 7), ("p", .instanceOf "Point")] m₁ ∧
      Exec.bind s m = .error (.error (.unknownType "Point")) m₂) ∧
    ∃ n₁ n₂, Exec.collect s n.scopes.active n =
        .error (.error (.parameterMismatch "p" "Point" (.instanceOf "Round"))) n₁ ∧
      Exec.bind s n = .ok () n₂ := by
  exact ⟨⟨_, _, rfl, rfl⟩, _, _, rfl, rfl⟩

end Catena
