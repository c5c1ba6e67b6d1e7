import Catena.Operator
import Catena.Value.ParameterList
import Catena.Proofs.Identity

set_option autoImplicit false

/-!
Translations of values. A translation goes through arrays, quotations, closures and operations and
leaves everything else as it is; the one thing it may change is how the host's operations answer.
One that is `prompt` lets an operation answer at once where it would have been awaited although its
answer is there. A program cannot tell a translated value from the value itself: kinds, types, texts
and equality are kept, and every function on values commutes with the translation.
-/

namespace Catena

/-! ### Maps -/

section

variable {V W : Type} (f : V → W)

def Bindings.map (b : Bindings V) : Bindings W := ⟨b.entries.map fun entry => (entry.1, f entry.2)⟩

def Closure.map (c : Closure V) : Closure W :=
  ⟨c.id, c.name, c.body.map f, c.signature, c.scope.map f⟩

def DataAction.map : DataAction V → DataAction W
  | .construct type fields types => .construct type fields (types.map f)
  | .isInstance type => .isInstance type
  | .isVariant variants => .isVariant variants
  | .get field => .get field
  | .set field types => .set field (types.map f)
  | .update field types => .update field (types.map f)

def DataOp.map (d : DataOp V) : DataOp W := ⟨d.name, d.action.map f⟩

def Reply.map : Reply V → Reply W
  | .value v => .value (f v)
  | .nothing => .nothing
  | .failure e => .failure e

def Future.map : Future V → Future W
  | .ready reply => .ready (reply.map f)
  | .later milliseconds reply => .later milliseconds (reply.map f)
  | .never => .never

def Pending.map (a : Pending V) : Pending W := ⟨a.label, a.future.map f, a.cancel⟩

/-- An awaited answer that is there already is given at once if that is wanted. -/
def BuiltinAction.translate (prompt : Bool) : BuiltinAction V → BuiltinAction W
  | .primitive p => .primitive p
  | .reply r => .reply (r.map f)
  | .await a =>
    match prompt, a.future with
    | true, .ready r => .reply (r.map f)
    | _, _ => .await (a.map f)

def Builtin.translate (prompt : Bool) (b : Builtin V) : Builtin W :=
  ⟨b.name, b.action.translate f prompt⟩

def Operation.translate (prompt : Bool) : Operation V → Operation W
  | .builtin b => .builtin (b.translate f prompt)
  | .data d => .data (d.map f)

@[simp] theorem Operation.name_translate (prompt : Bool) (o : Operation V) :
    (o.translate f prompt).name = o.name := by
  cases o <;> rfl

@[simp] theorem Bindings.get?_map (b : Bindings V) (name : String) :
    (b.map f).get? name = (b.get? name).map f := by
  obtain ⟨entries⟩ := b
  simp only [get?, map]
  induction entries with
  | nil => rfl
  | cons entry rest ih =>
    simp only [List.map_cons, find?]
    split
    · rfl
    · exact ih

@[simp] theorem Bindings.contains_map (b : Bindings V) (name : String) :
    (b.map f).contains name = b.contains name := by
  simp only [contains, get?_map, Option.isSome_map]

theorem Bindings.map_insert (b : Bindings V) (name : String) (v : V) :
    (b.insert name v).map f = (b.map f).insert name (f v) := by
  obtain ⟨entries⟩ := b
  simp only [insert, map, mk.injEq]
  induction entries with
  | nil => rfl
  | cons entry rest ih =>
    simp only [List.map_cons, replace]
    split
    · rfl
    · rw [List.map_cons, ih]

theorem Bindings.map_insertAll (b : Bindings V) (pairs : List (String × V)) :
    (b.insertAll pairs).map f =
      (b.map f).insertAll (pairs.map fun entry => (entry.1, f entry.2)) := by
  induction pairs generalizing b with
  | nil => rfl
  | cons pair pairs ih =>
    have rest := ih (b.insert pair.1 pair.2)
    rwa [map_insert] at rest

end

section

variable {V : Type}

@[simp] theorem Bindings.map_id (b : Bindings V) : b.map (fun v => v) = b := by
  simp [Bindings.map]

@[simp] theorem Closure.map_id (c : Closure V) : c.map (fun v => v) = c := by
  simp [Closure.map]

@[simp] theorem DataOp.map_id (d : DataOp V) : d.map (fun v => v) = d := by
  obtain ⟨name, action⟩ := d
  cases action <;> simp [DataOp.map, DataAction.map]

@[simp] theorem Reply.map_id (r : Reply V) : r.map (fun v => v) = r := by
  cases r <;> rfl

@[simp] theorem Pending.map_id (a : Pending V) : a.map (fun v => v) = a := by
  obtain ⟨label, future, cancel⟩ := a
  cases future <;> simp [Pending.map, Future.map]

@[simp] theorem Builtin.translate_id (b : Builtin V) : b.translate (fun v => v) false = b := by
  obtain ⟨name, action⟩ := b
  cases action <;> simp [Builtin.translate, BuiltinAction.translate]

@[simp] theorem Operation.translate_id (o : Operation V) :
    o.translate (fun v => v) false = o := by
  cases o <;> simp [Operation.translate]

end

/-- A way of reading values as other values that keeps all but how the host's operations answer. -/
structure Translation where
  /-- Whether answers that are there are given at once. -/
  prompt : Bool
  value : Value → Value
  /-- How the numbers of checkpoints of two machines may differ. -/
  counts : Nat → Nat → Prop
  value_plain : ∀ {v}, v.isPlain = true → value v = v
  value_array : ∀ id items, value (.array id items) = .array id (items.map value)
  value_quote : ∀ id code, value (.quote id code) = .quote id (code.map value)
  value_closure : ∀ c, value (.closure c) = .closure (c.map value)
  value_op : ∀ o origin, value (.op o origin) = .op (o.translate value prompt) origin
  counts_succ : ∀ {a b}, counts a b → counts (a + 1) (b + 1)

namespace Translation

/-- The translation that changes nothing. -/
def verbatim : Translation where
  prompt := false
  value v := v
  counts := Eq
  value_plain _ := rfl
  value_array := by simp
  value_quote := by simp
  value_closure := by simp
  value_op := by simp
  counts_succ := congrArg (· + 1)

variable (T : Translation)

attribute [simp] value_array value_quote value_closure value_op

@[simp] theorem value_int (n : Int64) : T.value (.int n) = .int n := T.value_plain rfl

@[simp] theorem value_float (x : Float) : T.value (.float x) = .float x := T.value_plain rfl

@[simp] theorem value_bool (b : Bool) : T.value (.bool b) = .bool b := T.value_plain rfl

@[simp] theorem value_str (text : String) : T.value (.str text) = .str text := T.value_plain rfl

@[simp] theorem value_sym (name : String) : T.value (.sym name) = .sym name := T.value_plain rfl

@[simp] theorem value_nil : T.value .nil = .nil := T.value_plain rfl

@[simp] theorem value_signature (s : Signature) : T.value (.signature s) = .signature s :=
  T.value_plain rfl

@[simp] theorem value_marker (m : Marker) : T.value (.marker m) = .marker m := T.value_plain rfl

@[simp] theorem value_ref (name : String) (origin : Origin) :
    T.value (.ref name origin) = .ref name origin := T.value_plain rfl

@[simp] theorem value_error (e : LocatedError) : T.value (.error e) = .error e := T.value_plain rfl

abbrev closure (c : Closure Value) : Closure Value := c.map T.value

abbrev scope (s : Scope) : Scope := s.map T.value

abbrev pair (x : Value × Value) : Value × Value := (T.value x.1, T.value x.2)

theorem activation (c : Closure Value) : (T.closure c).activation = T.scope c.activation := by
  obtain ⟨id, name, body, signature, scope⟩ := c
  cases name <;> simp [Closure.activation, Closure.map, Bindings.map_insert]

/-! ### What a program sees of a value -/

variable (v w : Value)

@[simp] theorem typeName : (T.value v).typeName = v.typeName := by
  cases v <;> simp [Value.typeName]

@[simp] theorem isNil : (T.value v).isNil = v.isNil := by
  cases v <;> simp [Value.isNil]

@[simp] theorem isError : (T.value v).isError = v.isError := by
  cases v <;> simp [Value.isError]

@[simp] theorem isNumber : (T.value v).isNumber = v.isNumber := by
  cases v <;> simp [Value.isNumber]

@[simp] theorem isQuotation : (T.value v).isQuotation = v.isQuotation := by
  cases v <;> simp [Value.isQuotation]

@[simp] theorem isCallable : (T.value v).isCallable = v.isCallable := by
  cases v <;> simp [Value.isCallable]

@[simp] theorem belongsTo? (type : String) : (T.value v).belongsTo? type = v.belongsTo? type := by
  simp only [Value.belongsTo?, isNil, isNumber, isQuotation, isCallable, typeName]

mutual

theorem display : ∀ v : Value, (T.value v).display = v.display
  | .array _ items => by simp only [value_array, Value.display, displayItems ", " items]
  | .quote _ code => by simp only [value_quote, Value.display, displayItems " " code]
  | .closure c => by simp only [value_closure, Value.display, Closure.display, Closure.map]
  | .op o _ => by simp only [value_op, Value.display, Operation.name_translate]
  | .int _ | .float _ | .bool _ | .str _ | .sym _ | .nil | .signature _ | .marker _ | .ref .. |
    .error _ => by rw [T.value_plain rfl]

theorem displayItems (separator : String) : ∀ items : List Value,
    Value.displayItems separator (items.map T.value) = Value.displayItems separator items
  | [] => rfl
  | [item] => by simp only [List.map_cons, List.map_nil, Value.displayItems, display item]
  | item :: next :: rest => by
    have tail := displayItems separator (next :: rest)
    simp only [List.map_cons] at tail ⊢
    simp only [Value.displayItems, display item, tail]

end

@[simp] theorem culprit : RuntimeError.culprit (T.value v) = RuntimeError.culprit v := by
  simp only [RuntimeError.culprit, typeName, display]

@[simp] theorem culprit_array (id : Nat) (items : List Value) :
    RuntimeError.culprit (.array id (items.map T.value)) =
      RuntimeError.culprit (.array id items) := by
  rw [← value_array, culprit]

@[simp] theorem culprit_quote (id : Nat) (code : List Value) :
    RuntimeError.culprit (.quote id (code.map T.value)) =
      RuntimeError.culprit (.quote id code) := by
  rw [← value_quote, culprit]

@[simp] theorem culprit_closure (c : Closure Value) :
    RuntimeError.culprit (.closure (c.map T.value)) = RuntimeError.culprit (.closure c) := by
  rw [← value_closure, culprit]

@[simp] theorem culprit_op (o : Operation Value) (origin : Origin) :
    RuntimeError.culprit (.op (o.translate T.value T.prompt) origin) =
      RuntimeError.culprit (.op o origin) := by
  rw [← value_op, culprit]

theorem mismatch (operator expected : String) :
    RuntimeError.mismatch operator expected (T.value v) = .mismatch operator expected v := by
  simp only [RuntimeError.mismatch, culprit]

theorem value_eq_sym_iff (name : String) : T.value v = .sym name ↔ v = .sym name := by
  cases v <;> simp

@[simp] theorem instanceType? : (T.value v).instanceType? = v.instanceType? := by
  apply Option.ext
  intro type
  rw [Value.instanceType?_eq_some_iff, Value.instanceType?_eq_some_iff]
  cases v with
  | array id items =>
    cases items with
    | nil => simp
    | cons first rest => cases rest <;> simp [value_eq_sym_iff]
  | _ => simp

mutual

theorem equalIn (shared : Bool) : ∀ v w : Value,
    Value.equalIn shared (T.value v) (T.value w) = Value.equalIn shared v w
  | .array i a, w => by
    cases w with
    | array j b => simp only [value_array, Value.equalIn, equalItems (shared || i == j) a b]
    | _ => simp [Value.equalIn]
  | .quote i a, w => by
    cases w with
    | quote j b => simp only [value_quote, Value.equalIn, equalItems (shared || i == j) a b]
    | _ => simp [Value.equalIn]
  | .closure c, w => by cases w <;> simp [Value.equalIn, Closure.map]
  | .op o _, w => by cases w <;> simp [Value.equalIn]
  | .int _, w | .float _, w | .bool _, w | .str _, w | .sym _, w | .nil, w | .signature _, w |
    .marker _, w | .ref .., w | .error _, w => by cases w <;> simp [Value.equalIn]

theorem equalItems (shared : Bool) : ∀ a b : List Value,
    Value.equalItems shared (a.map T.value) (b.map T.value) = Value.equalItems shared a b
  | [], [] => rfl
  | [], _ :: _ => rfl
  | _ :: _, [] => rfl
  | v :: a, w :: b => by
    simp only [List.map_cons, Value.equalItems, equalIn shared v w, equalItems shared a b]

end

@[simp] theorem beq : (T.value v == T.value w) = (v == w) := T.equalIn false v w

/-! ### Parameter lists and pairs -/

theorem returnTypes (items : List Value) :
    Signature.returnTypes (items.map T.value) = Signature.returnTypes items := by
  induction items with
  | nil => rfl
  | cons v items ih =>
    have shown := T.display v
    cases v <;> simp_all [Signature.returnTypes, RuntimeError.notAReturnType]

theorem readAfter (seen : List Param) (items : List Value) :
    Signature.readAfter seen (items.map T.value) = Signature.readAfter seen items := by
  induction items generalizing seen with
  | nil => rfl
  | cons v items ih =>
    have shown := T.display v
    cases v with
    | sym type =>
      simp only [List.map_cons, value_sym, Signature.readAfter]
      split
      · exact ih _
      · rfl
    | marker m =>
      cases m <;> simp_all [Signature.readAfter, Signature.parameterName?, T.returnTypes items]
    | _ => simp_all [Signature.readAfter, Signature.parameterName?, RuntimeError.notAParameter]

theorem ofValues (items : List Value) :
    Signature.ofValues (items.map T.value) = Signature.ofValues items :=
  T.readAfter [] items

theorem pairUp : ∀ items : List Value,
    Catena.pairUp (items.map T.value) = (Catena.pairUp items).map (List.map T.pair)
  | [] => rfl
  | [_] => rfl
  | test :: action :: rest => by
    simp only [List.map_cons, Catena.pairUp, isCallable, mismatch, pairUp rest]
    split
    · rfl
    · split
      · rfl
      · cases Catena.pairUp rest <;> rfl

theorem readPairs (items : List Value) :
    Catena.readPairs (items.map T.value) = (Catena.readPairs items).map (List.map T.pair) := by
  simp only [Catena.readPairs, List.length_map, pairUp]
  split <;> rfl

/-! ### Types -/

variable (types active : Scope)

@[simp] theorem test? (action : DataAction Value) :
    (action.map T.value).test? (T.value v) = action.test? v := by
  cases action <;> simp [DataAction.map, DataAction.test?]

theorem predicate? (type : String) :
    Catena.predicate? (T.scope types) (T.scope active) type =
      (Catena.predicate? types active type).map T.value := by
  simp only [Catena.predicate?, Bindings.get?_map]
  cases types.get? (predicateName type) <;> rfl

theorem checkType (type : String) :
    Catena.checkType (T.scope types) (T.scope active) type (T.value v) =
      Catena.checkType types active type v := by
  simp only [Catena.checkType, belongsTo?, predicate?]
  cases Catena.predicate? types active type with
  | none => rfl
  | some found =>
    cases found with
    | op o origin => cases o <;> simp [Operation.translate, DataOp.map]
    | _ => simp

theorem check (p : Param) :
    p.check (T.scope types) (T.scope active) (T.value v) = p.check types active v := by
  simp only [Param.check, checkType, RuntimeError.parameterMismatch, culprit]

theorem checkResults (position : Nat) (names : List String) (values : List Value) :
    Catena.checkResults (T.scope active) position names (values.map T.value) =
      Catena.checkResults active position names values := by
  induction names generalizing position values with
  | nil => rfl
  | cons type names ih =>
    cases values with
    | nil => rfl
    | cons v values =>
      simp only [List.map_cons, Catena.checkResults, checkType, ih, RuntimeError.returnMismatch,
        culprit]

/-! ### Data declarations -/

theorem readFields (type : String) :
    Declaration.readFields type (T.value v) = Declaration.readFields type v := by
  cases v <;> simp [Declaration.readFields, Value.isQuotation, Value.typeName]

theorem readVariants (union : String) : ∀ (seen : List String) (items : List Value),
    Declaration.readVariants union seen (items.map T.value) =
      Declaration.readVariants union seen items
  | _, [] => rfl
  | _, [v] => by cases v <;> simp [Declaration.readVariants]
  | seen, v :: fields :: rest => by
    have shown := T.display v
    cases v with
    | sym variant =>
      simp only [List.map_cons, value_sym, Declaration.readVariants, T.readFields fields,
        readVariants union _ rest]
    | _ => simp_all [Declaration.readVariants, RuntimeError.notAVariantName]

theorem read (name : String) : Declaration.read name (T.value v) = Declaration.read name v := by
  have fields := T.readFields v name
  cases v with
  | array id items =>
    simp only [value_array, Declaration.read, List.isEmpty_map, List.length_map, readVariants]
  | _ => simp_all [Declaration.read]

theorem entries (origin : Origin) (ops : List (DataOp Value)) :
    Declaration.entries origin (ops.map (DataOp.map T.value)) =
      (Declaration.entries origin ops).map fun entry => (entry.1, T.value entry.2) := by
  simp [Declaration.entries, DataOp.map, Operation.translate, Function.comp_def]

theorem predicates (decl : Declaration) :
    decl.predicates.map (DataOp.map T.value) = decl.predicates := by
  cases decl <;> simp [Declaration.predicates, DataOp.map, DataAction.map, Function.comp_def]

theorem members (s : Struct) :
    (Declaration.members types s).map (DataOp.map T.value) =
      Declaration.members (T.scope types) s := by
  simp only [Declaration.members, List.map_cons, List.map_flatMap]
  rfl

theorem operations (decl : Declaration) (origin : Origin) :
    decl.operations (T.scope active) origin =
      (decl.operations active origin).map (DataOp.map T.value) := by
  have known := active.map_insertAll T.value (Declaration.entries origin decl.predicates)
  rw [← entries, predicates] at known
  simp only [Declaration.operations, ← known, List.map_append, predicates, List.map_flatMap,
    members]

/-! ### Arithmetic and sequences -/

theorem numberPair (operator : String) :
    NumberPair.read operator (T.value v) (T.value w) = NumberPair.read operator v w := by
  cases v <;> cases w <;>
    simp [NumberPair.read, RuntimeError.mismatch, offender, Value.isNumber]

theorem arithmetic (op : ArithmeticOp) :
    op.apply (T.value v) (T.value w) = (op.apply v w).map T.value := by
  simp only [ArithmeticOp.apply, numberPair]
  cases NumberPair.read op.name v w with
  | error e => rfl
  | ok pair =>
    cases pair with
    | floats x y => simp [Except.map]
    | ints x y =>
      simp only
      cases op.onInts x y <;> simp [Except.map]

theorem negate : Catena.negate (T.value v) = (Catena.negate v).map T.value := by
  cases v with
  | int n =>
    simp only [value_int, Catena.negate]
    split <;> simp [Except.map]
  | _ => simp [Catena.negate, RuntimeError.mismatch, Except.map]

theorem order (operator : String) :
    Comparison.order operator (T.value v) (T.value w) = Comparison.order operator v w := by
  cases v <;> cases w <;>
    simp [Comparison.order, RuntimeError.mismatch, offender, Comparison.isOrdered]

theorem compare (c : Comparison) :
    c.apply (T.value v) (T.value w) = (c.apply v w).map T.value := by
  simp only [Comparison.apply, order]
  cases Comparison.order c.name v w <;> simp [Except.map]

theorem asFloat (operator : String) :
    Catena.asFloat operator (T.value v) = Catena.asFloat operator v := by
  cases v <;> simp [Catena.asFloat, RuntimeError.mismatch]

theorem verdict (kind : AssertionKind) :
    kind.verdict (T.value v) (T.value w) = kind.verdict v w := by
  cases kind <;> simp [AssertionKind.verdict, asFloat, bne]

theorem errorMessage : (T.value v).errorMessage = v.errorMessage.map T.value := by
  cases v <;> simp [Value.errorMessage, RuntimeError.mismatch, Except.map]

theorem append (id : Nat) :
    (T.value v).append id (T.value w) = (v.append id w).map T.value := by
  cases v <;> simp [Value.append, RuntimeError.mismatch, Except.map]

theorem length : (T.value v).length = v.length.map T.value := by
  cases v <;> simp [Value.length, RuntimeError.mismatch, Except.map]

theorem nth (index : Int64) : (T.value v).nth index = (v.nth index).map T.value := by
  cases v with
  | array id items =>
    simp only [value_array, Value.nth, elementAt?, List.length_map, List.getElem?_map]
    by_cases negative : index.toInt < 0
    · simp [negative, Except.map]
    · cases items[index.toInt.toNat]? <;> simp [negative, Except.map]
  | str text =>
    simp only [value_str, Value.nth]
    split <;> simp [Except.map]
  | _ => simp [Value.nth, RuntimeError.mismatch, Except.map]

theorem concat (id : Nat) :
    (T.value v).concat id (T.value w) = (v.concat id w).map T.value := by
  cases v <;> cases w <;>
    simp [Value.concat, RuntimeError.mismatch, Value.isSequence, Except.map]

/-! ### Iteration -/

def source : Source → Source
  | .range start stop => .range start stop
  | .items values => .items (values.map T.value)
  | .chars text => .chars text

@[simp] theorem length_source (s : Source) : (T.source s).length = s.length := by
  cases s <;> simp [source, Source.length]

@[simp] theorem element (s : Source) (index : Nat) :
    (T.source s).element index = T.value (s.element index) := by
  cases s with
  | items values =>
    simp only [source, Source.element, List.getD_eq_getElem?_getD, List.getElem?_map]
    cases values[index]? <;> simp
  | _ => simp [source, Source.element]

end Translation

end Catena
