import Catena.Value.ParameterList
import Mathlib.Computability.RegularExpressions
import Mathlib.Data.List.Forall2

set_option autoImplicit false

/-!
What a parameter list says. A list of values is read as a signature just when it has the right
shape: names, each with a type after it or without, and then perhaps an arrow with types. The
signature says what the list says, and a list can be told from its signature, except that a name may
stand there as a reference or as an operator, and where it was written is forgotten.
-/

namespace Catena

/-! ### Lists of the right shape -/

/-- What an item can be in a parameter list. -/
inductive ItemKind where
  | name
  | type
  | arrow
  | other
  deriving DecidableEq

def Value.itemKind : Value → ItemKind
  | .ref .. | .op .. => .name
  | .sym _ => .type
  | .marker .arrow => .arrow
  | _ => .other

/-- Items of one kind. -/
abbrev ItemKind.expr (kind : ItemKind) : RegularExpression ItemKind := .char kind

/-- A name, with a type or without. -/
def Param.shape : RegularExpression ItemKind :=
  ItemKind.name.expr * (1 + ItemKind.type.expr)

/-- Names, each with a type or without, and perhaps an arrow and types. -/
def Signature.shape : RegularExpression ItemKind :=
  Param.shape.star * (1 + ItemKind.arrow.expr * ItemKind.type.expr.star)

/-- The value stands for a parameter of this name. -/
inductive Value.Declares : Value → String → Prop
  | ref (name : String) (origin : Origin) : Declares (.ref name origin) name
  | op (o : Operation Value) (origin : Origin) : Declares (.op o origin) o.name

/-- The items declare the parameter: its name, and its type if it has one. -/
inductive Param.WrittenAs : Param → List Value → Prop
  | bare {v name} : v.Declares name → WrittenAs ⟨name, none⟩ [v]
  | typed {v name} (type : String) : v.Declares name → WrittenAs ⟨name, some type⟩ [v, .sym type]

/-- The arrow and the types of the results, if they are checked. -/
def Signature.resultItems (s : Signature) : List Value :=
  match s.returns with
  | none => []
  | some types => .marker .arrow :: types.map .sym

/-- The items are the parameters in order, each as it is declared, and then the results. -/
def Signature.WrittenAs (s : Signature) (items : List Value) : Prop :=
  ∃ entries, List.Forall₂ Param.WrittenAs s.params entries ∧
    items = entries.flatten ++ s.resultItems

/-- The items are one and the same, or names that are spelled alike. -/
def Value.SameItem (v w : Value) : Prop := v = w ∨ ∃ name, v.Declares name ∧ w.Declares name

/-- A parameter written with a reference for its name. -/
def Param.items (origin : Origin) (p : Param) : List Value :=
  .ref p.name origin :: p.type.toList.map .sym

def Signature.items (origin : Origin) (s : Signature) : List Value :=
  s.params.flatMap (Param.items origin) ++ s.resultItems

theorem Value.Declares.itemKind {v : Value} {name : String} (declares : v.Declares name) :
    v.itemKind = .name := by
  cases declares <;> rfl

namespace Value

variable {v : Value}

theorem exists_declares (kind : v.itemKind = .name) : ∃ name, v.Declares name := by
  cases v with
  | ref text origin => exact ⟨text, .ref text origin⟩
  | op o origin => exact ⟨o.name, .op o origin⟩
  | marker m => cases m <;> cases kind
  | _ => cases kind

theorem exists_sym (kind : v.itemKind = .type) : ∃ type, v = .sym type := by
  cases v with
  | sym type => exact ⟨type, rfl⟩
  | marker m => cases m <;> cases kind
  | _ => cases kind

theorem eq_arrow (kind : v.itemKind = .arrow) : v = .marker .arrow := by
  cases v with
  | marker m => cases m <;> first | rfl | cases kind
  | _ => cases kind

theorem SameItem.eq_of_itemKind {w : Value} (same : v.SameItem w) (other : v.itemKind ≠ .name) :
    w = v := by
  rcases same with same | ⟨name, declares, _⟩
  · exact same.symm
  · exact absurd declares.itemKind other

theorem eq_of_sameItems {items others : List Value} (plain : ∀ v ∈ items, v.itemKind ≠ .name)
    (same : List.Forall₂ SameItem items others) : others = items := by
  induction same with
  | nil => rfl
  | cons vw _ ih =>
    obtain ⟨first, rest⟩ := List.forall_mem_cons.1 plain
    rw [vw.eq_of_itemKind first, ih rest]

theorem Declares.unique {name name' : String} (first : v.Declares name)
    (second : v.Declares name') : name = name' := by
  cases first <;> cases second <;> rfl

theorem SameItem.declares {w : Value} {name : String} (same : v.SameItem w)
    (declares : v.Declares name) : w.Declares name := by
  rcases same with rfl | ⟨name', declares', other⟩
  · exact declares
  · rwa [declares.unique declares']

end Value

theorem ItemKind.mem_expr {kind : ItemKind} {kinds : List ItemKind} :
    kinds ∈ kind.expr.matches' ↔ kinds = [kind] := Iff.rfl

namespace Param

theorem mem_shape {kinds : List ItemKind} :
    kinds ∈ shape.matches' ↔ kinds = [.name] ∨ kinds = [.name, .type] := by
  constructor
  · rintro ⟨_, rfl, _, rfl | rfl, rfl⟩
    · exact .inl rfl
    · exact .inr rfl
  · rintro (rfl | rfl)
    · exact ⟨[.name], rfl, [], .inl rfl, rfl⟩
    · exact ⟨[.name], rfl, [.type], .inr rfl, rfl⟩

theorem WrittenAs.kinds {p : Param} {entry : List Value} (written : p.WrittenAs entry) :
    entry.map Value.itemKind ∈ shape.matches' := by
  rw [mem_shape]
  cases written with
  | bare declares => exact .inl (by rw [List.map_singleton, declares.itemKind])
  | typed type declares => exact .inr (by rw [List.map_cons, declares.itemKind]; rfl)

theorem exists_writtenAs {entry : List Value}
    (kinds : entry.map Value.itemKind ∈ shape.matches') : ∃ p : Param, p.WrittenAs entry := by
  rcases mem_shape.1 kinds with bare | typed
  · obtain ⟨v, rfl, named⟩ := List.map_eq_singleton_iff.1 bare
    obtain ⟨name, declares⟩ := Value.exists_declares named
    exact ⟨⟨name, none⟩, .bare declares⟩
  · obtain ⟨v, rest, rfl, named, typed⟩ := List.map_eq_cons_iff.1 typed
    obtain ⟨w, rfl, symbol⟩ := List.map_eq_singleton_iff.1 typed
    obtain ⟨name, declares⟩ := Value.exists_declares named
    obtain ⟨type, rfl⟩ := Value.exists_sym symbol
    exact ⟨⟨name, some type⟩, .typed type declares⟩

theorem WrittenAs.sameItems {p : Param} {entry other : List Value} (written : p.WrittenAs entry)
    (written' : p.WrittenAs other) : List.Forall₂ Value.SameItem entry other := by
  cases written with
  | bare declares =>
    cases written' with
    | bare declares' => exact .cons (.inr ⟨_, declares, declares'⟩) .nil
  | typed type declares =>
    cases written' with
    | typed _ declares' => exact .cons (.inr ⟨_, declares, declares'⟩) (.cons (.inl rfl) .nil)

end Param

/-! ### Reading an item -/

namespace Signature

variable {seen : List Param} {v : Value} {rest items : List Value} {s : Signature} {name : String}

theorem readAfter_of_declares (declares : v.Declares name) :
    readAfter seen (v :: rest) = readAfter (⟨name, none⟩ :: seen) rest := by
  cases declares <;> rfl

theorem returnTypes_eq_ok_iff {types : List String} :
    returnTypes items = .ok types ↔ items = types.map .sym := by
  induction items generalizing types with
  | nil => cases types <;> simp [returnTypes]
  | cons v items ih =>
    cases v with
    | sym type =>
      rw [returnTypes]
      cases read : returnTypes items with
      | ok later =>
        obtain rfl := ih.1 read
        cases types with
        | nil => simp
        | cons first types =>
          simp only [Except.ok.injEq, List.cons.injEq, List.map_cons, Value.sym.injEq]
          rw [← ih, read, Except.ok.injEq]
      | error e =>
        cases types with
        | nil => simp
        | cons first types =>
          simp only [reduceCtorEq, List.map_cons, List.cons.injEq, false_iff, not_and]
          rintro _ rfl
          cases read.symm.trans (ih.2 rfl)
    | _ => cases types <;> simp [returnTypes]

theorem readAfter_resultItems : readAfter seen s.resultItems = .ok ⟨seen.reverse, s.returns⟩ := by
  unfold resultItems
  cases s.returns with
  | none => rfl
  | some types =>
    have read := returnTypes_eq_ok_iff.2 (Eq.refl (types.map Value.sym))
    simp only [readAfter, read]

/-- What the first item can be if the list is read. -/
theorem readAfter_cons_eq_ok (read : readAfter seen (v :: rest) = .ok s) :
    (∃ name, v.Declares name ∧ readAfter (⟨name, none⟩ :: seen) rest = .ok s) ∨
    (∃ type name earlier, v = .sym type ∧ seen = ⟨name, none⟩ :: earlier ∧
      readAfter (⟨name, some type⟩ :: earlier) rest = .ok s) ∨
    (v = .marker .arrow ∧ s.params = seen.reverse ∧ v :: rest = s.resultItems) := by
  cases v with
  | ref text origin => exact .inl ⟨text, .ref text origin, read⟩
  | op o origin => exact .inl ⟨o.name, .op o origin, read⟩
  | sym type =>
    match seen with
    | ⟨name, none⟩ :: earlier => exact .inr (.inl ⟨type, name, earlier, rfl, rfl, read⟩)
    | ⟨name, some _⟩ :: earlier => cases read
    | [] => cases read
  | marker m =>
    cases m with
    | arrow =>
      rw [readAfter] at read
      cases types : returnTypes rest with
      | error e =>
        rw [types] at read
        cases read
      | ok results =>
        rw [types] at read
        cases read
        exact .inr (.inr ⟨rfl, rfl, congrArg _ (returnTypes_eq_ok_iff.1 types)⟩)
    | _ => cases read
  | _ => cases read

/-! ### Reading a list -/

/-- The parameters are read one by one, whatever comes after them. -/
theorem readAfter_entries {params : List Param} {entries : List (List Value)}
    (written : List.Forall₂ Param.WrittenAs params entries) (seen : List Param) :
    readAfter seen (entries.flatten ++ rest) = readAfter (params.reverse ++ seen) rest := by
  induction written generalizing seen with
  | nil => rfl
  | @cons p entry params entries first _ ih =>
    have read : readAfter seen (entry ++ (entries.flatten ++ rest)) =
        readAfter (p :: seen) (entries.flatten ++ rest) := by
      cases first with
      | bare declares => exact readAfter_of_declares declares
      | typed type declares => exact readAfter_of_declares declares
    rw [List.flatten_cons, List.append_assoc, read, ih, List.reverse_cons, List.append_assoc,
      List.singleton_append]

theorem WrittenAs.ofValues_eq (written : s.WrittenAs items) : ofValues items = .ok s := by
  obtain ⟨entries, params, rfl⟩ := written
  rw [ofValues, readAfter_entries params, List.append_nil, readAfter_resultItems,
    List.reverse_reverse]

/-- A list that is read declares parameters after those that have been seen. If it begins with a
type, this is the type of the latest of them. -/
theorem exists_entries (read : readAfter seen items = .ok s) :
    ∃ params entries, List.Forall₂ Param.WrittenAs params entries ∧
      ((items = entries.flatten ++ s.resultItems ∧ s.params = seen.reverse ++ params) ∨
        ∃ type name earlier, seen = ⟨name, none⟩ :: earlier ∧
          items = .sym type :: (entries.flatten ++ s.resultItems) ∧
          s.params = earlier.reverse ++ ⟨name, some type⟩ :: params) := by
  induction items generalizing seen with
  | nil =>
    cases read
    exact ⟨[], [], .nil, .inl ⟨rfl, (List.append_nil _).symm⟩⟩
  | cons v rest ih =>
    rcases readAfter_cons_eq_ok read with
      ⟨name, declares, later⟩ | ⟨type, name, earlier, rfl, rfl, later⟩ | ⟨_, params, results⟩
    · obtain ⟨params, entries, written, ⟨rfl, all⟩ | ⟨type, _, _, same, rfl, all⟩⟩ := ih later
      · refine ⟨⟨name, none⟩ :: params, [v] :: entries, .cons (.bare declares) written,
          .inl ⟨rfl, ?_⟩⟩
        rw [all, List.reverse_cons, List.append_assoc, List.singleton_append]
      · cases same
        exact ⟨⟨name, some type⟩ :: params, [v, .sym type] :: entries,
          .cons (.typed type declares) written, .inl ⟨rfl, all⟩⟩
    · obtain ⟨params, entries, written, ⟨rfl, all⟩ | ⟨_, _, _, same, _⟩⟩ := ih later
      · refine ⟨params, entries, written, .inr ⟨type, name, earlier, rfl, rfl, ?_⟩⟩
        rw [all, List.reverse_cons, List.append_assoc, List.singleton_append]
      · cases same
    · exact ⟨[], [], .nil, .inl ⟨results, by rw [params, List.append_nil]⟩⟩

theorem ofValues_eq_ok_iff : ofValues items = .ok s ↔ s.WrittenAs items := by
  constructor
  · intro read
    obtain ⟨params, entries, written, ⟨rfl, all⟩ | ⟨_, _, _, none, _⟩⟩ := exists_entries read
    · rw [List.reverse_nil, List.nil_append] at all
      exact ⟨entries, all ▸ written, rfl⟩
    · cases none
  · exact WrittenAs.ofValues_eq

theorem writtenAs_items (s : Signature) (origin : Origin) : s.WrittenAs (s.items origin) := by
  refine ⟨s.params.map (Param.items origin), ?_, by rw [items, List.flatMap_def]⟩
  rw [List.forall₂_map_right_iff, List.forall₂_same]
  rintro ⟨name, type⟩ _
  cases type with
  | none => exact .bare (.ref name origin)
  | some type => exact .typed type (.ref name origin)

/-! ### Shapes -/

theorem exists_writtenAs_of_kinds {words : List (List ItemKind)}
    (each : ∀ word ∈ words, word ∈ Param.shape.matches')
    (kinds : items.map Value.itemKind = words.flatten) :
    ∃ params entries, List.Forall₂ Param.WrittenAs params entries ∧ items = entries.flatten := by
  induction words generalizing items with
  | nil => exact ⟨[], [], .nil, List.map_eq_nil_iff.1 kinds⟩
  | cons word words ih =>
    obtain ⟨first, others⟩ := List.forall_mem_cons.1 each
    obtain ⟨entry, later, rfl, here, there⟩ := List.map_eq_append_iff.1 kinds
    obtain ⟨p, written⟩ := Param.exists_writtenAs (here ▸ first)
    obtain ⟨params, entries, all, rfl⟩ := ih others there
    exact ⟨p :: params, entry :: entries, .cons written all, rfl⟩

theorem exists_types_of_kinds {words : List (List ItemKind)}
    (each : ∀ word ∈ words, word ∈ ItemKind.type.expr.matches')
    (kinds : items.map Value.itemKind = words.flatten) :
    ∃ types : List String, items = types.map .sym := by
  induction words generalizing items with
  | nil => exact ⟨[], List.map_eq_nil_iff.1 kinds⟩
  | cons word words ih =>
    obtain ⟨first, others⟩ := List.forall_mem_cons.1 each
    obtain rfl := ItemKind.mem_expr.1 first
    obtain ⟨v, later, rfl, here, there⟩ := List.map_eq_cons_iff.1 kinds
    obtain ⟨type, rfl⟩ := Value.exists_sym here
    obtain ⟨types, rfl⟩ := ih others there
    exact ⟨type :: types, rfl⟩

theorem exists_results_of_kinds
    (kinds : items.map Value.itemKind ∈
      (1 + ItemKind.arrow.expr * ItemKind.type.expr.star).matches') :
    ∃ returns, ∀ params, items = resultItems ⟨params, returns⟩ := by
  rcases kinds with bare | ⟨_, arrow, _, ⟨words, rfl, each⟩, kinds⟩
  · exact ⟨none, fun _ => List.map_eq_nil_iff.1 bare⟩
  · obtain rfl := ItemKind.mem_expr.1 arrow
    obtain ⟨v, later, rfl, here, there⟩ := List.map_eq_cons_iff.1 kinds.symm
    obtain rfl := Value.eq_arrow here
    obtain ⟨types, rfl⟩ := exists_types_of_kinds each there
    exact ⟨some types, fun _ => rfl⟩

theorem kinds_entries {params : List Param} {entries : List (List Value)}
    (written : List.Forall₂ Param.WrittenAs params entries) :
    ∀ entry ∈ entries, entry.map Value.itemKind ∈ Param.shape.matches' := by
  induction written with
  | nil => exact List.forall_mem_nil _
  | cons first _ ih => exact List.forall_mem_cons.2 ⟨first.kinds, ih⟩

theorem kinds_resultItems (s : Signature) :
    s.resultItems.map Value.itemKind ∈
      (1 + ItemKind.arrow.expr * ItemKind.type.expr.star).matches' := by
  unfold resultItems
  cases s.returns with
  | none => exact .inl rfl
  | some types =>
    refine .inr ⟨[.arrow], rfl, _, ⟨types.map fun _ => [.type], rfl, ?_⟩, ?_⟩
    · simp only [List.forall_mem_map]
      exact fun _ _ => rfl
    · simp [Value.itemKind, Function.comp_def]

theorem kinds_mem_shape_iff :
    items.map Value.itemKind ∈ shape.matches' ↔ ∃ s : Signature, s.WrittenAs items := by
  constructor
  · rintro ⟨_, ⟨words, rfl, each⟩, _, results, kinds⟩
    obtain ⟨upper, lower, rfl, here, rfl⟩ := List.map_eq_append_iff.1 kinds.symm
    obtain ⟨params, entries, written, rfl⟩ := exists_writtenAs_of_kinds each here
    obtain ⟨returns, same⟩ := exists_results_of_kinds results
    exact ⟨⟨params, returns⟩, entries, written, congrArg _ (same params)⟩
  · rintro ⟨s, entries, written, rfl⟩
    refine ⟨_, ⟨entries.map (List.map Value.itemKind), rfl, ?_⟩, _, s.kinds_resultItems, ?_⟩
    · rw [List.forall_mem_map]
      exact kinds_entries written
    · rw [List.map_append, List.map_flatten]

/-! ### Lists that say the same -/

theorem itemKind_resultItems (s : Signature) : ∀ v ∈ s.resultItems, v.itemKind ≠ .name := by
  unfold resultItems
  cases s.returns with
  | none => exact List.forall_mem_nil _
  | some types =>
    refine List.forall_mem_cons.2 ⟨ItemKind.noConfusion, List.forall_mem_map.2 fun _ _ => ?_⟩
    exact ItemKind.noConfusion

theorem WrittenAs.returns_eq_none_iff (written : s.WrittenAs items) :
    s.returns = none ↔ .marker .arrow ∉ items := by
  obtain ⟨entries, params, rfl⟩ := written
  have above : .marker .arrow ∉ entries.flatten := by
    intro member
    obtain ⟨entry, inside, member⟩ := List.mem_flatten.1 member
    have kinds : ItemKind.arrow ∈ entry.map Value.itemKind := List.mem_map_of_mem member
    rcases Param.mem_shape.1 (kinds_entries params entry inside) with same | same
    all_goals
      rw [same] at kinds
      revert kinds
      decide
  have below : .marker .arrow ∉ s.resultItems ↔ s.returns = none := by
    unfold resultItems
    cases s.returns <;> simp
  rw [List.mem_append, not_or, below]
  exact (and_iff_right above).symm

theorem WrittenAs.sameItems {other : List Value} (written : s.WrittenAs items)
    (written' : s.WrittenAs other) : List.Forall₂ Value.SameItem items other := by
  obtain ⟨entries, params, rfl⟩ := written
  obtain ⟨entries', params', rfl⟩ := written'
  refine List.rel_append (List.rel_flatten ?_) (List.forall₂_same.2 fun _ _ => .inl rfl)
  generalize s.params = all at params params'
  induction params generalizing entries' with
  | nil =>
    cases params'
    exact .nil
  | cons first _ ih =>
    cases params' with
    | cons first' rest' => exact .cons (first.sameItems first') (ih _ rest')

/-- What is read from a list is also read when names in it are spelled otherwise. -/
theorem readAfter_of_sameItems {other : List Value} (same : List.Forall₂ Value.SameItem items other)
    (read : readAfter seen items = .ok s) : readAfter seen other = .ok s := by
  induction same generalizing seen with
  | nil => exact read
  | @cons v w rest rest' vw same ih =>
    rcases readAfter_cons_eq_ok read with
      ⟨name, declares, later⟩ | ⟨type, name, earlier, rfl, rfl, later⟩ | ⟨rfl, params, results⟩
    · rw [readAfter_of_declares (vw.declares declares)]
      exact ih later
    · obtain rfl := vw.eq_of_itemKind ItemKind.noConfusion
      exact ih later
    · have others := List.Forall₂.cons vw same
      rw [results] at others
      rw [Value.eq_of_sameItems s.itemKind_resultItems others, readAfter_resultItems, ← params]

/-- A list of values is read as a signature just when it has the right shape, and then the signature
says what the list says. Every signature is read from the list that is written for it, and two lists
are read as the same signature if and only if they differ in nothing but how names are given. -/
theorem ofValues_exact (items : List Value) :
    ((∃ s, ofValues items = .ok s) ↔ items.map Value.itemKind ∈ shape.matches') ∧
    (∀ s, ofValues items = .ok s ↔ s.WrittenAs items) ∧
    (∀ s, ofValues items = .ok s → (s.returns = none ↔ .marker .arrow ∉ items)) ∧
    (∀ s origin, ofValues (Signature.items origin s) = .ok s) ∧
    ∀ s other, ofValues items = .ok s →
      (ofValues other = .ok s ↔ List.Forall₂ Value.SameItem items other) := by
  refine ⟨?_, fun s => ofValues_eq_ok_iff, fun s read => ?_, fun s origin => ?_,
    fun s other read => ⟨fun read' => ?_, fun same => readAfter_of_sameItems same read⟩⟩
  · simp only [kinds_mem_shape_iff, ofValues_eq_ok_iff]
  · exact (ofValues_eq_ok_iff.1 read).returns_eq_none_iff
  · exact (s.writtenAs_items origin).ofValues_eq
  · exact (ofValues_eq_ok_iff.1 read).sameItems (ofValues_eq_ok_iff.1 read')

/-- The list `(x :Int dup -> :Str)`, where `dup` may stand as the operator or as a reference. -/
theorem ofValues_exact_dup :
    let dup : Value := .op (.builtin ⟨"dup", .primitive .dup⟩) ⟨1, 9⟩
    let items := [.ref "x" ⟨1, 2⟩, .sym "Int", dup, .marker .arrow, .sym "Str"]
    let other := [.ref "x" .none, .sym "Int", .ref "dup" .none, .marker .arrow, .sym "Str"]
    let s : Signature := ⟨[⟨"x", some "Int"⟩, ⟨"dup", none⟩], some ["Str"]⟩
    ofValues items = .ok s ∧ items.map Value.itemKind ∈ shape.matches' ∧ s.WrittenAs items ∧
      .marker .arrow ∈ items ∧ List.Forall₂ Value.SameItem items other := by
  intro dup items other s
  have read : ofValues items = .ok s := rfl
  obtain ⟨accepted, written, arrow, _, same⟩ := ofValues_exact items
  refine ⟨read, accepted.1 ⟨s, read⟩, (written s).1 read, ?_, (same s other read).1 rfl⟩
  by_contra absent
  cases (arrow s read).2 absent

end Signature

end Catena
