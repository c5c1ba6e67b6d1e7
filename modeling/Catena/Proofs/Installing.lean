import Catena.Proofs.Declaring

set_option autoImplicit false

/-!
Data declarations are all or nothing. What a declaration may say is written down apart from the
reading of it; it is read if and only if it says that, and all names it stands for are looked at
before the first one is bound. A declaration that is refused has taken its operands and done nothing
else.
-/

namespace Catena

/-! ### What may be declared -/

/-- A struct as it stands in the body of a union. -/
def Struct.written (s : Struct) : List Value := [.sym s.name, .signature s.fields]

namespace Declaration

/-- The values that stand for a declaration, below which its name is. -/
inductive HasBody : Declaration → Value → Prop
  | struct (s : Struct) : HasBody (.struct s) (.signature s.fields)
  | union {variants : List Struct} (name : String) (id : Nat) (some : variants ≠ []) :
      HasBody (.union name variants) (.array id (variants.flatMap Struct.written))

/-- Type names begin with a capital letter. -/
def IsTypeName (type : String) : Prop := ∃ c rest, type.toList = c :: rest ∧ Text.isUppercase c

/-- Fields are declared once, and nothing is said about what they return. -/
def IsFieldList (fields : Signature) : Prop :=
  fields.returns = none ∧ (fields.params.map Param.name).Nodup

/-- What a declaration has to be like. -/
structure WellFormed (decl : Declaration) : Prop where
  capitalised : ∀ type ∈ decl.types, IsTypeName type
  distinct : decl.types.Nodup
  fields : ∀ s ∈ decl.structs, IsFieldList s.fields

variable {decl : Declaration}

theorem checkTypeName_eq_ok_iff {type : String} :
    checkTypeName type = .ok () ↔ IsTypeName type := by
  unfold checkTypeName IsTypeName
  cases type.toList with
  | nil => simp
  | cons c rest => by_cases upper : Text.isUppercase c <;> simp [upper]

theorem repeated?_eq_none_iff {seen names : List String} :
    repeated? seen names = none ↔ names.Nodup ∧ ∀ name ∈ names, name ∉ seen := by
  refine ⟨repeated?_eq_none, ?_⟩
  induction names generalizing seen with
  | nil => exact fun _ => rfl
  | cons name names ih =>
    rintro ⟨distinct, apart⟩
    obtain ⟨fresh, distinct⟩ := List.nodup_cons.1 distinct
    obtain ⟨unseen, apart⟩ := List.forall_mem_cons.1 apart
    rw [repeated?, if_neg unseen]
    refine ih ⟨distinct, fun other member taken => ?_⟩
    rcases List.mem_cons.1 taken with rfl | taken
    · exact fresh member
    · exact apart other member taken

theorem checkFields_eq_ok_iff {type : String} {fields : Signature} :
    checkFields type fields = .ok () ↔ IsFieldList fields := by
  unfold checkFields IsFieldList
  cases fields.returns with
  | some types => simp
  | none =>
    have distinct : repeated? [] (fields.params.map Param.name) = none ↔ _ := repeated?_eq_none_iff
    cases found : repeated? [] (fields.params.map Param.name) with
    | some field => simpa [found] using distinct
    | none => simpa [found] using distinct

theorem readFields_eq_ok_iff {type : String} {v : Value} {s : Struct} :
    readFields type v = .ok s ↔ s.name = type ∧ v = .signature s.fields ∧ IsFieldList s.fields := by
  constructor
  · intro read
    unfold readFields at read
    split at read
    · next fields =>
      obtain ⟨_, checked, read⟩ := exists_of_bind_eq_ok read
      cases read
      exact ⟨rfl, rfl, checkFields_eq_ok_iff.1 checked⟩
    · cases read
  · rintro ⟨rfl, rfl, proper⟩
    rw [readFields, checkFields_eq_ok_iff.2 proper]
    rfl

/-- The variants that are read are those that have been written. -/
theorem items_of_readVariants {union : String} {seen : List String} {items : List Value}
    {variants : List Struct} (read : readVariants union seen items = .ok variants) :
    items = variants.flatMap Struct.written ∧
      ∀ s ∈ variants, IsTypeName s.name ∧ IsFieldList s.fields := by
  fun_induction readVariants union seen items generalizing variants with
  | case1 =>
    cases read
    exact ⟨rfl, List.forall_mem_nil _⟩
  | case2 seen variant fields rest ih =>
    obtain ⟨_, named, read⟩ := exists_of_bind_eq_ok read
    simp only at read
    split at read
    · cases read
    obtain ⟨s, ofFields, read⟩ := exists_of_bind_eq_ok read
    obtain ⟨later, ofRest, read⟩ := exists_of_bind_eq_ok read
    cases read
    obtain ⟨rfl, rfl, proper⟩ := readFields_eq_ok_iff.1 ofFields
    obtain ⟨rfl, each⟩ := ih ofRest
    exact ⟨rfl, List.forall_mem_cons.2 ⟨⟨checkTypeName_eq_ok_iff.1 named, proper⟩, each⟩⟩
  | case3 => cases read
  | case4 => cases read

/-- Variants that have been written are read, if their names are new. -/
theorem readVariants_written {union : String} {seen : List String} {variants : List Struct}
    (each : ∀ s ∈ variants, IsTypeName s.name ∧ IsFieldList s.fields)
    (distinct : (variants.map Struct.name).Nodup)
    (apart : ∀ name ∈ variants.map Struct.name, name ∉ seen) :
    readVariants union seen (variants.flatMap Struct.written) = .ok variants := by
  induction variants generalizing seen with
  | nil => rfl
  | cons s variants ih =>
    obtain ⟨⟨named, proper⟩, each⟩ := List.forall_mem_cons.1 each
    obtain ⟨fresh, distinct⟩ := List.nodup_cons.1 distinct
    obtain ⟨unseen, apart⟩ := List.forall_mem_cons.1 apart
    have later (name : String) (member : name ∈ variants.map Struct.name) :
        name ∉ s.name :: seen := by
      intro taken
      rcases List.mem_cons.1 taken with rfl | taken
      · exact fresh member
      · exact apart name member taken
    have fields : readFields s.name (.signature s.fields) = .ok s :=
      readFields_eq_ok_iff.2 ⟨rfl, rfl, proper⟩
    simp only [List.flatMap_cons, Struct.written, List.cons_append, List.nil_append, readVariants,
      checkTypeName_eq_ok_iff.2 named, if_neg unseen, fields]
    have rest := ih each distinct later
    simp only [rest]
    rfl

theorem length_written (variants : List Struct) :
    (variants.flatMap Struct.written).length = 2 * variants.length := by
  induction variants with
  | nil => rfl
  | cons s variants ih =>
    rw [List.flatMap_cons, List.length_append, ih, List.length_cons]
    exact (Nat.mul_succ 2 _ ▸ Nat.add_comm _ _)

/-- A declaration is read if and only if its body stands for it and it is well-formed. -/
theorem read_eq_ok_iff {name : String} {body : Value} :
    Declaration.read name body = .ok decl ↔
      decl.name = name ∧ decl.HasBody body ∧ decl.WellFormed := by
  constructor
  · intro read
    have proper := proper_of_read read
    obtain ⟨_, named, read⟩ := exists_of_bind_eq_ok read
    have capital := checkTypeName_eq_ok_iff.1 named
    split at read
    · next id items _ =>
      split at read
      · cases read
      · next filled =>
        obtain ⟨variants, ofItems, read⟩ := exists_of_bind_eq_ok read
        cases read
        obtain ⟨rfl, each⟩ := items_of_readVariants ofItems
        refine ⟨rfl, .union name id ?_, ?_, proper.types, fun s member => (each s member).2⟩
        · rintro rfl
          exact filled rfl
        · refine List.forall_mem_append.2 ⟨?_, List.forall_mem_singleton.2 capital⟩
          exact List.forall_mem_map.2 fun s member => (each s member).1
    · obtain ⟨s, ofFields, read⟩ := exists_of_bind_eq_ok read
      cases read
      obtain ⟨rfl, rfl, fields⟩ := readFields_eq_ok_iff.1 ofFields
      exact ⟨rfl, .struct s, List.forall_mem_singleton.2 capital, proper.types,
        List.forall_mem_singleton.2 fields⟩
  · rintro ⟨rfl, body, capitalised, distinct, fields⟩
    cases body with
    | struct s =>
      have named := checkTypeName_eq_ok_iff.2 (capitalised s.name (List.mem_singleton_self _))
      have ofFields : readFields s.name (.signature s.fields) = .ok s :=
        readFields_eq_ok_iff.2 ⟨rfl, rfl, fields s (List.mem_singleton_self _)⟩
      simp only [Declaration.read, Declaration.name, named, ofFields]
      rfl
    | @union variants name id some =>
      obtain ⟨ofVariants, capital⟩ := List.forall_mem_append.1 capitalised
      have named := checkTypeName_eq_ok_iff.2 (capital name (List.mem_singleton_self _))
      obtain ⟨apart, _, other⟩ := List.nodup_append.1 distinct
      have ofItems : readVariants name [name] (variants.flatMap Struct.written) = .ok variants := by
        refine readVariants_written (fun s member => ⟨?_, fields s member⟩) apart ?_
        · exact ofVariants s.name (List.mem_map_of_mem member)
        · intro type member same
          exact other type member name (List.mem_singleton_self _) (List.mem_singleton.1 same)
      have filled : (variants.flatMap Struct.written).isEmpty = false := by
        cases variants with
        | nil => exact absurd rfl some
        | cons s variants => rfl
      simp only [Declaration.read, Declaration.name, named, filled, length_written, ofItems,
        Nat.mul_mod_right]
      rfl

end Declaration

/-! ### Making a declaration -/

namespace Exec

variable {m m' made : Machine} {signal : Signal}

theorem of_dataDef_eq_error (failed : dataDef m = .error signal m') :
    (∃ e, signal = .error e) ∧ ∃ n ≤ 2, m.Spends n m' := by
  rcases bind_eq_error failed with missing | ⟨body, m₁, first, failed⟩
  · obtain ⟨cause, kept⟩ := of_pop_eq_error missing
    exact ⟨cause, 0, Nat.zero_le 2, kept⟩
  have one := (pop_eq_ok_iff.1 first).2
  rcases bind_eq_error failed with unnamed | ⟨name, m₂, second, failed⟩
  · obtain ⟨cause, n, few, taken⟩ := of_popAs_eq_error unnamed
    exact ⟨cause, 1 + n, Nat.add_le_add_left few 1, one.trans taken⟩
  have two := one.trans (pop_eq_ok_iff.1 (popName_eq_ok_iff.1 second)).2
  rcases bind_eq_error failed with unread | ⟨decl, m₃, accepted, refused⟩
  · obtain ⟨cause, rfl⟩ := of_ofExcept_eq_error unread
    exact ⟨cause, 2, Nat.le_refl 2, two⟩
  · obtain ⟨_, rfl⟩ := ofExcept_eq_ok_iff.1 accepted
    obtain ⟨cause, rfl⟩ := of_change_eq_error refused
    exact ⟨cause, 2, Nat.le_refl 2, two⟩

end Exec

/-- A declaration lies on top of the operands, where it can be taken, and is well-formed. -/
structure Machine.Proposes (decl : Declaration) (m : Machine) : Prop where
  operands : ∃ body lower, decl.HasBody body ∧ m.operands.toList = lower ++ [.sym decl.name, body]
  accessible : 2 ≤ m.operands.accessible
  wellFormed : decl.WellFormed

/-- A declaration has been taken from the operands and all its operations have been bound. -/
structure Machine.Installs (decl : Declaration) (m made : Machine) : Prop where
  machine : ∃ left, m.Spends 2 left ∧
    made = { left with scopes := { m.scopes with active := made.scopes.active } }
  others : ∀ name, name ∉ (decl.operationsAt m).map DataOp.name →
    made.scopes.active.get? name = m.scopes.active.get? name
  bound : ∀ d ∈ decl.operationsAt m, ∃ e ∈ decl.operationsAt m, e.name = d.name ∧
    made.scopes.active.get? d.name = some (.op (.data e) m.origin)

variable {m left made : Machine} {decl other : Declaration}

theorem Machine.Proposes.unique (proposes : m.Proposes decl) (proposes' : m.Proposes other) :
    decl = other := by
  obtain ⟨⟨body, lower, written, operands⟩, _, proper⟩ := proposes
  obtain ⟨⟨body', lower', written', operands'⟩, _, proper'⟩ := proposes'
  rw [Operands.toList_eq_append_iff] at operands operands'
  rw [operands] at operands'
  injection operands' with body names
  injection names with name
  injection name with name
  subst body
  have read := Declaration.read_eq_ok_iff.2 ⟨rfl, written, proper⟩
  have read' := Declaration.read_eq_ok_iff.2 ⟨rfl, written', proper'⟩
  rw [name, read'] at read
  exact (Except.ok.inj read).symm

/-- A declaration is made if there is one on top of the operands and all its names are free. -/
theorem Exec.dataDef_eq_ok_iff :
    dataDef m = .ok () made ↔
      ∃ decl left, m.Proposes decl ∧ m.Spends 2 left ∧ left.declare decl = .ok made := by
  constructor
  · intro ran
    obtain ⟨body, m₁, first, ran⟩ := bind_eq_ok ran
    obtain ⟨name, m₂, second, ran⟩ := bind_eq_ok ran
    obtain ⟨decl, m₃, accepted, declared⟩ := bind_eq_ok ran
    obtain ⟨read, rfl⟩ := ofExcept_eq_ok_iff.1 accepted
    obtain ⟨rfl, written, proper⟩ := Declaration.read_eq_ok_iff.1 read
    obtain ⟨top, one⟩ := pop_eq_ok_iff.1 first
    obtain ⟨next, another⟩ := pop_eq_ok_iff.1 (popName_eq_ok_iff.1 second)
    obtain ⟨below, items⟩ := List.head?_eq_some_iff.1 top
    have rest : m₁.operands.items.toList = below := by
      rw [one.machine]
      exact congrArg (List.drop 1) items
    rw [rest] at next
    obtain ⟨lower, rfl⟩ := List.head?_eq_some_iff.1 next
    have taken := one.trans another
    refine ⟨decl, m₃, ⟨⟨body, lower.reverse, written, ?_⟩, taken.accessible, proper⟩, taken,
      change_eq_ok_iff.1 declared⟩
    rw [Operands.toList_eq_append_iff, List.reverse_reverse]
    exact items
  · rintro ⟨decl, left, ⟨⟨body, lower, written, operands⟩, within, proper⟩, ⟨_, rfl⟩, declared⟩
    have items : m.operands.items.toList = body :: .sym decl.name :: lower.reverse :=
      Operands.toList_eq_append_iff.1 operands
    have first : pop m = .ok body { m with operands := m.operands.spend 1 } :=
      pop_eq_ok_iff.2 ⟨by rw [items, List.head?_cons], Nat.le_of_succ_le within, rfl⟩
    have second : popName Primitive.dataDef.name { m with operands := m.operands.spend 1 } =
        .ok decl.name { m with operands := m.operands.spend 2 } := by
      refine popName_eq_ok_iff.2 (pop_eq_ok_iff.2 ⟨?_, ?_, ?_⟩)
      · exact congrArg (fun items => (List.drop 1 items).head?) items
      · rw [Operands.accessible_spend]
        omega
      · rw [Operands.spend_spend]
    have read := Declaration.read_eq_ok_iff.2 ⟨rfl, written, proper⟩
    simp only [dataDef, Bind.bind, EStateM.bind, first, second, ofExcept, read]
    exact change_eq_ok_iff.2 declared

theorem Machine.Installs.of_declare (taken : m.Spends 2 left)
    (declared : left.declare decl = .ok made) : m.Installs decl made := by
  obtain ⟨_, bound⟩ := Machine.of_declare declared
  have machine := taken.machine
  subst machine
  subst bound
  refine ⟨⟨_, taken, rfl⟩, fun name other => ?_, fun d member => ?_⟩
  · refine Declaration.get?_insertAll_of_not_mem ?_
    rw [Declaration.entries, List.map_map]
    exact other
  · obtain ⟨e, same, kept⟩ := Declaration.exists_keeps member
    refine ⟨e, ?_, same, ?_⟩
    · obtain ⟨before, after, ops, _⟩ := kept
      rw [ops]
      exact List.mem_append_right _ List.mem_cons_self
    · rw [← same]
      exact Declaration.get?_of_keeps kept _ _

/-- Whether a declaration is made depends on its names alone. -/
theorem Machine.exists_declare_iff (taken : m.Spends 2 left) :
    (∃ made, left.declare decl = .ok made) ↔
      ∀ d ∈ decl.operationsAt m, m.isBuiltin d.name = false := by
  have machine := taken.machine
  subst machine
  constructor
  · rintro ⟨made, declared⟩ d member
    have unregistered := (Machine.of_declare declared).1 d member
    simpa [isBuiltin, Bindings.contains] using unregistered
  · intro free
    refine Declaration.exists_declare (List.all_eq_true.2 fun d member => ?_)
    have unregistered := free d member
    simpa [isBuiltin] using unregistered

theorem Exec.invokeOperation_dataDef (m : Machine) :
    invokeOperation (.primitive .dataDef) m = dataDef m :=
  invokeOperation_of_plain rfl m

/-- A declaration is all or nothing, in whatever state it is made. If it is refused, at most the two
operands on top are gone. If it is made, they are gone and all names it stands for are bound to
operations of the declaration; no other name has changed. And a well-formed declaration is refused
only if one of its names is that of a builtin. -/
theorem dataDef_all_or_nothing (m : Machine) :
    (∀ signal m', Exec.invokeOperation (.primitive .dataDef) m = .error signal m' →
      (∃ e, signal = .error e) ∧ ∃ n ≤ 2, m.Spends n m') ∧
    (∀ made, Exec.invokeOperation (.primitive .dataDef) m = .ok () made →
      ∃ decl, m.Proposes decl ∧ m.Installs decl made) ∧
    ∀ decl, m.Proposes decl →
      ((∃ made, Exec.invokeOperation (.primitive .dataDef) m = .ok () made) ↔
        ∀ d ∈ decl.operationsAt m, m.isBuiltin d.name = false) := by
  simp only [Exec.invokeOperation_dataDef]
  refine ⟨fun signal m' => Exec.of_dataDef_eq_error, fun made ran => ?_, fun decl proposes => ?_⟩
  · obtain ⟨decl, left, proposes, taken, declared⟩ := Exec.dataDef_eq_ok_iff.1 ran
    exact ⟨decl, proposes, .of_declare taken declared⟩
  · have taken : m.Spends 2 _ := ⟨proposes.accessible, rfl⟩
    rw [← Machine.exists_declare_iff taken]
    constructor
    · rintro ⟨made, ran⟩
      obtain ⟨other, left, proposes', taken', declared⟩ := Exec.dataDef_eq_ok_iff.1 ran
      have same := proposes.unique proposes'
      subst same
      rw [taken'.machine] at declared
      exact ⟨made, declared⟩
    · rintro ⟨made, declared⟩
      exact ⟨made, Exec.dataDef_eq_ok_iff.2 ⟨decl, _, proposes, taken, declared⟩⟩

/-- A struct is declared, and the last of its operations has the name of a builtin. -/
def Machine.lastTaken : Machine :=
  (Machine.new (Registry.standard.register "point-y" (.reply .nothing))).given
    [.sym "Point", .signature Struct.point.fields]

theorem dataDef_all_or_nothing_last_name :
    Machine.lastTaken.Proposes (.struct .point) ∧
      ∃ e m', Exec.invokeOperation (.primitive .dataDef) .lastTaken = .error (.error e) m' ∧
        ∃ n ≤ 2, Machine.lastTaken.Spends n m' := by
  have read : Declaration.read "Point" (.signature Struct.point.fields) = .ok (.struct .point) := by
    rfl
  obtain ⟨_, written, proper⟩ := Declaration.read_eq_ok_iff.1 read
  have proposes : Machine.lastTaken.Proposes (.struct .point) :=
    ⟨⟨_, [], written, rfl⟩, by decide, proper⟩
  obtain ⟨refused, _, made⟩ := dataDef_all_or_nothing .lastTaken
  refine ⟨proposes, ?_⟩
  cases ran : Exec.invokeOperation (.primitive .dataDef) .lastTaken with
  | error signal m' =>
    obtain ⟨⟨e, rfl⟩, kept⟩ := refused signal m' ran
    exact ⟨e, m', rfl, kept⟩
  | ok a installed =>
    have free := (made _ proposes).1 ⟨installed, ran⟩
    have taken : ((Declaration.struct .point).operationsAt .lastTaken).any
        (fun d => Machine.lastTaken.isBuiltin d.name) = true := by decide +kernel
    obtain ⟨d, member, builtin⟩ := List.any_eq_true.1 taken
    rw [free d member] at builtin
    cases builtin

end Catena
