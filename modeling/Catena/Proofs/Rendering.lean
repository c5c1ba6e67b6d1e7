import Catena.Proofs.Mirror

set_option autoImplicit false

/-!
Every operation is rendered by the operation that a translation makes of it. The exception is an
operation that would be awaited and answers at once instead; it is left to those who invoke it.
-/

namespace Catena.Translation

variable {T : Translation} {A B : List Frame}

/-- Operations that may hand over to a value. -/
abbrev Next (T : Translation) (A B : List Frame) (x y : Exec (Option Value)) : Prop :=
  Renders T A B (Option.map T.value) x y

/-- Operations that answer nothing. -/
abbrev Silent (T : Translation) (A B : List Frame) (x y : Exec Unit) : Prop :=
  Renders T A B id x y

namespace Renders

theorem plain {x y : Exec Unit} (run : Silent T A B x y) :
    Next T A B (Exec.plain x) (Exec.plain y) :=
  run.bind fun _ => pure none

/-! ### Operators on operands -/

theorem unary {f g : Value → Except RuntimeError Value}
    (fg : ∀ v, g (T.value v) = (f v).map T.value) :
    Silent T A B (Exec.unary f) (Exec.unary g) :=
  pop.bind fun v => (ofExcept (fg v)).bind push

theorem binary {f g : Value → Value → Except RuntimeError Value}
    (fg : ∀ v w, g (T.value v) (T.value w) = (f v w).map T.value) :
    Silent T A B (Exec.binary f) (Exec.binary g) :=
  pop.bind fun w => pop.bind fun v => (ofExcept (fg v w)).bind push

/-- Pushing a value that the translation leaves as it is. -/
theorem pushPlain {v : Value} (plain : v.isPlain = true) :
    Silent T A B (Exec.push v) (Exec.push v) := by
  have pushed := push (T := T) (A := A) (B := B) v
  rwa [T.value_plain plain] at pushed

theorem logical (p : Primitive) (f : Bool → Bool → Bool) :
    Silent T A B (Exec.logical p f) (Exec.logical p f) :=
  (popBool _).bind fun _ => (popBool _).bind fun _ => pushPlain rfl

theorem dup : Silent T A B Exec.dup Exec.dup := (peek 0).bind push

theorem drop : Silent T A B Exec.drop Exec.drop := pop.bind fun _ => pure ()

theorem swap : Silent T A B Exec.swap Exec.swap :=
  pop.bind fun b => pop.bind fun a => (push b).bind fun _ => push a

theorem copySecond : Silent T A B Exec.copySecond Exec.copySecond := (peek 1).bind push

theorem rot : Silent T A B Exec.rot Exec.rot :=
  pop.bind fun c => pop.bind fun b => pop.bind fun a =>
    (push b).bind fun _ => (push c).bind fun _ => push a

theorem clear : Silent T A B Exec.clear Exec.clear := by
  refine update fun own m n mirrors => ⟨own, { mirrors with operands := ?_ }⟩
  simp only [mirrors.operands, Operands.map_truncate, Operands.floor_map]

theorem depth : Silent T A B Exec.depth Exec.depth := by
  refine getThen fun own m n mirrors => ?_
  rw [mirrors.operands, Operands.accessible_map]
  exact pushPlain rfl

theorem append : Silent T A B Exec.append Exec.append :=
  fresh.bind fun id => binary fun v w => T.append v w id

theorem concat : Silent T A B Exec.concat Exec.concat :=
  fresh.bind fun id => binary fun v w => T.concat v w id

theorem nth : Silent T A B Exec.nth Exec.nth :=
  (popInt _).bind fun index => unary fun v => T.nth v index

theorem record (kind : AssertionKind) (passed : Bool) (operands : List Value) :
    Silent T A B (Exec.record kind passed operands)
      (Exec.record kind passed (operands.map T.value)) := by
  refine update fun own m n mirrors => ⟨own, { mirrors with report := ?_ }⟩
  simp only [mirrors.report, mirrors.origin]
  cases m.report with
  | none => rfl
  | some r => cases passed <;> simp [Report.record, report]

theorem assertion (kind : AssertionKind) :
    Silent T A B (Exec.assertion kind) (Exec.assertion kind) :=
  pop.bind fun w => pop.bind fun v =>
    (check (T.verdict v w kind)).bind fun passed => record kind passed [v, w]

/-! ### Operators that choose, repeat and leave -/

theorem ifElse : Next T A B Exec.ifElse Exec.ifElse := by
  have quotation : Renders T A B T.value
      (Exec.popAs Primitive.ifElse.name "a quotation"
        fun v => if v.isQuotation then some v else none)
      (Exec.popAs Primitive.ifElse.name "a quotation"
        fun v => if v.isQuotation then some v else none) := by
    refine popAs _ _ fun v => ?_
    rw [T.isQuotation]
    split <;> rfl
  refine quotation.bind fun first => getThen fun own m n mirrors => ?_
  rw [mirrors.operands, Operands.topIs_map T.value m.operands T.isQuotation]
  by_cases two : m.operands.topIs Value.isQuotation = true
  · rw [if_pos two, if_pos two]
    refine pop.bind fun consequent => (popBool _).bind fun holds => ?_
    cases holds with
    | true => exact pure (some consequent)
    | false => exact pure (some first)
  · rw [if_neg two, if_neg two]
    refine (popBool _).bind fun holds => ?_
    cases holds with
    | true => exact pure (some first)
    | false => exact pure none

theorem popPairs (operator : String) :
    Renders T A B (fun found => (T.value found.1, found.2.map T.pair)) (Exec.popPairs operator)
      (Exec.popPairs operator) := by
  refine pop.bind fun v => ?_
  have other := mismatch (T := T) (A := A) (B := B)
    (V := fun found : Value × List (Value × Value) => (T.value found.1, found.2.map T.pair))
    operator "an array of pairs" v
  cases v with
  | array id items =>
    rw [T.value_array]
    refine (ofExcept (T.readPairs items)).bind fun pairs => ?_
    rw [← T.value_array]
    exact pure (Value.array id items, pairs)
  | _ => simpa using other

theorem cond : Silent T A B Exec.cond Exec.cond :=
  (popPairs _).bind fun found => pushFrame (.condTest found.2)

theorem loop : Silent T A B Exec.loop Exec.loop :=
  (popBody _).bind fun body => pushFrame (.loop body)

theorem popSource (operator : String) :
    Renders T A B T.source (Exec.popSource operator) (Exec.popSource operator) := by
  refine pop.bind fun v => ?_
  have other := mismatch (T := T) (A := A) (B := B) (V := T.source) operator
    "a range, array or string" v
  cases v with
  | int stop =>
    rw [T.value_int]
    exact (popInt operator).bind fun start => pure (Source.range start stop)
  | array id items =>
    rw [T.value_array]
    exact pure (Source.items items)
  | str text =>
    rw [T.value_str]
    exact pure (Source.chars text.toList)
  | _ => simpa using other

theorem iterate (withIndex : Bool) :
    Silent T A B (Exec.iterate withIndex) (Exec.iterate withIndex) :=
  (popBody _).bind fun body => (popSource _).bind fun source =>
    pushFrame (.iterate source 0 withIndex body)

theorem breakIf : Silent T A B Exec.breakIf Exec.breakIf := by
  refine (popBool _).bind fun holds => ?_
  cases holds with
  | true => exact throw .break
  | false => exact pure ()

theorem tailCall : Silent T A B Exec.tailCall Exec.tailCall := by
  refine pop.bind fun v => ?_
  have other := mismatch (T := T) (A := A) (B := B) (V := (id : Unit → Unit))
    Primitive.tailCall.name "a closure" v
  cases v with
  | closure c =>
    rw [T.value_closure]
    exact throw (.tailCall c)
  | sym name =>
    rw [T.value_sym]
    refine getThen fun own m n mirrors => ?_
    simp only [mirrors.scopes, Scopes.get?, Scopes.map, Bindings.get?_map]
    cases m.scopes.active.get? name with
    | none => exact fail _
    | some found =>
      have other := mismatch (T := T) (A := A) (B := B) (V := (id : Unit → Unit))
        Primitive.tailCall.name "a closure" found
      rw [Option.map_some]
      cases found with
      | closure c =>
        rw [T.value_closure]
        exact throw (.tailCall c)
      | _ => simpa using other
  | _ => simpa using other

theorem attempt : Next T A B Exec.attempt Exec.attempt := by
  refine (popCallable _).bind fun body => getThen fun own m n mirrors => ?_
  rw [mirrors.operands, Operands.count_map]
  exact (pushFrame (.attempt m.operands.count)).bind fun _ => pure (some body)

theorem raise : Silent T A B Exec.raise Exec.raise := (popStr _).bind fun _ => fail _

theorem sleep : Silent T A B Exec.sleep Exec.sleep := by
  refine (popInt _).bind fun milliseconds => ?_
  by_cases negative : milliseconds.toInt < 0
  · rw [if_pos negative, id, if_pos negative]
    exact fail _
  · rw [if_neg negative, id, if_neg negative]
    exact throw (.await ⟨_, .timer milliseconds.toInt.toNat, some .silent⟩)

/-! ### Operators that make closures and bind names -/

theorem popSignature? : Renders T A B id Exec.popSignature? Exec.popSignature? := by
  refine getThen fun own m n mirrors => ?_
  rw [mirrors.operands, Operands.peek_map]
  have none : Renders T A B id (Pure.pure none : Exec (Option Signature)) (Pure.pure none) :=
    pure none
  cases m.operands.peek 0 with
  | error e => exact none
  | ok v =>
    cases v with
    | signature s =>
      simp only [Except.map, T.value_signature]
      exact pop.bind fun _ => pure (some s)
    | _ => simpa [Except.map] using none

theorem close (name : Option String) (body : List Value) (signature : Option Signature) :
    Renders T A B T.value (Exec.close name body signature)
      (Exec.close name (body.map T.value) signature) := by
  refine fresh.bind fun i => getThen fun own m n mirrors => ?_
  have made := pure (T := T) (A := A) (B := B) (V := T.value)
    (.closure ⟨i, name, body, signature, m.scopes.active⟩)
  rw [T.value_closure] at made
  rw [mirrors.scopes]
  exact made

theorem function : Silent T A B Exec.function Exec.function :=
  (popBody _).bind fun body => popSignature?.bind fun signature => (popName _).bind fun name =>
    (close (some name) body signature).bind fun c => define name c

theorem lambda : Silent T A B Exec.lambda Exec.lambda :=
  (popBody _).bind fun body => popSignature?.bind fun signature =>
    (close none body signature).bind push

theorem condFunction : Silent T A B Exec.condFunction Exec.condFunction := by
  refine (popPairs _).bind fun found => popSignature?.bind fun signature =>
    (popName _).bind fun name => getThen fun own m n mirrors => ?_
  rw [mirrors.origin]
  have made := close (T := T) (A := A) (B := B) (some name)
    [found.1, .op (.builtin ⟨Primitive.cond.name, .primitive .cond⟩) m.origin] signature
  simp only [List.map_cons, List.map_nil, T.value_op, Operation.translate, Builtin.translate,
    BuiltinAction.translate] at made
  exact made.bind fun c => define name c

theorem defineName : Silent T A B Exec.defineName Exec.defineName :=
  (popName _).bind fun name => pop.bind fun v => define name v

theorem declare (decl : Declaration) :
    Silent T A B (Exec.change (·.declare decl)) (Exec.change (·.declare decl)) := by
  intro own m n mirrors
  have operations : decl.operations n.scopes.active n.origin =
      (decl.operations m.scopes.active m.origin).map (DataOp.map T.value) := by
    rw [mirrors.scopes, mirrors.origin]
    exact T.operations _ decl _
  have shadowing : (fun d : DataOp Value => n.isBuiltin d.name) ∘ DataOp.map T.value =
      fun d => m.isBuiltin d.name := by
    funext d
    exact mirrors.isBuiltin d.name
  simp only [Exec.change, Machine.declare, operations, List.find?_map, shadowing]
  cases (decl.operations m.scopes.active m.origin).find? fun d => m.isBuiltin d.name with
  | some d => exact .error (s := .error _) mirrors
  | none =>
    refine .ok (a := ()) { mirrors with scopes := ?_ }
    simp only [mirrors.scopes, mirrors.origin, T.entries, Scopes.map, Bindings.map_insertAll]

theorem dataDef : Silent T A B Exec.dataDef Exec.dataDef :=
  pop.bind fun body => (popName _).bind fun name =>
    (check (T.read body name)).bind fun decl => declare decl

/-! ### Operations on instances -/

theorem popInstance (operator : String) (field : Field) :
    Renders T A B (fun found => (found.1.map T.value, T.value found.2))
      (Exec.popInstance operator field) (Exec.popInstance operator field) := by
  refine popAs operator field.owner fun v => ?_
  rw [T.instanceType?]
  cases v with
  | array id items =>
    rw [T.value_array]
    cases Value.instanceType? (.array id items) == some field.owner with
    | false => rfl
    | true =>
      simp only [List.getElem?_map]
      cases items[field.index]? <;> rfl
  | _ => simp

theorem checkField (field : Field) (types : Scope) (v : Value) :
    Silent T A B (Exec.checkField field types v)
      (Exec.checkField field (T.scope types) (T.value v)) := by
  simp only [Exec.checkField]
  cases field.type with
  | none => exact pure ()
  | some type =>
    refine getThen fun own m n mirrors => ?_
    have verdict : Catena.checkType (T.scope types) n.scopes.active type (T.value v) =
        Catena.checkType types m.scopes.active type v := by
      rw [mirrors.scopes]
      exact T.checkType v types _ type
    refine (check verdict).bind fun holds => ?_
    cases holds with
    | true => exact pure ()
    | false =>
      simp only [RuntimeError.fieldMismatch, T.culprit]
      exact fail _

theorem writeField (items : List Value) (field : Field) (types : Scope) (v : Value) :
    Silent T A B (Exec.writeField items field types v)
      (Exec.writeField (items.map T.value) field (T.scope types) (T.value v)) := by
  refine (checkField field types v).bind fun _ => ?_
  rw [← List.map_set]
  exact pushArray _

theorem beginUpdate (operator : String) (field : Field) (types : Scope) :
    Next T A B (Exec.beginUpdate operator field types)
      (Exec.beginUpdate operator field (T.scope types)) := by
  refine (popCallable _).bind fun callable => (popInstance _ _).bind fun found =>
    getThen fun own m n mirrors => ?_
  rw [mirrors.operands, Operands.count_map]
  exact (pushFrame (.update found.1 field types m.operands.count)).bind fun _ =>
    forbid.bind fun _ => (push found.2).bind fun _ => pure (some callable)

/-! ### Arguments -/

theorem popMany (wanted : Nat) :
    Renders T A B (List.map T.value) (Exec.popMany wanted) (Exec.popMany wanted) := by
  induction wanted with
  | zero => exact pure []
  | succ wanted ih =>
    refine pop.bind fun v => ih.bind fun below => ?_
    have all := pure (T := T) (A := A) (B := B) (V := List.map T.value) (below ++ [v])
    rwa [List.map_append] at all

theorem takeArguments (wanted : Nat) :
    Renders T A B (List.map T.value) (Exec.takeArguments wanted) (Exec.takeArguments wanted) := by
  refine getThen fun own m n mirrors => ?_
  simp only [mirrors.operands, Operands.accessible_map]
  by_cases few : m.operands.accessible < wanted
  · rw [if_pos few]
    exact fail _
  · rw [if_neg few]
    exact popMany wanted

theorem collectInto (types : Scope) (params : List Param) (values : List Value) :
    Renders T A B (List.map fun entry => (entry.1, T.value entry.2))
      (Exec.collectInto types params values)
      (Exec.collectInto (T.scope types) params (values.map T.value)) := by
  induction params generalizing values with
  | nil => exact pure []
  | cons param params ih =>
    cases values with
    | nil => exact pure []
    | cons v values =>
      refine getThen fun own m n mirrors => ?_
      have checked : param.check (T.scope types) n.scopes.active (T.value v) =
          param.check types m.scopes.active v := by
        rw [mirrors.scopes]
        exact T.check v types _ param
      exact (check checked).bind fun _ => (ih values).bind fun rest =>
        pure ((param.name, v) :: rest)

theorem collect (signature : Signature) (types : Scope) :
    Renders T A B (List.map fun entry => (entry.1, T.value entry.2))
      (Exec.collect signature types) (Exec.collect signature (T.scope types)) :=
  (takeArguments _).bind fun values => collectInto types signature.params values

theorem bindInto (params : List Param) (values : List Value) :
    Silent T A B (Exec.bindInto params values)
      (Exec.bindInto params (values.map T.value)) := by
  induction params generalizing values with
  | nil => exact pure ()
  | cons param params ih =>
    cases values with
    | nil => exact pure ()
    | cons v values =>
      refine getThen fun own m n mirrors => ?_
      have checked : param.check n.scopes.active n.scopes.active (T.value v) =
          param.check m.scopes.active m.scopes.active v := by
        rw [mirrors.scopes]
        exact T.check v _ _ param
      exact (check checked).bind fun _ => (put param.name v).bind fun _ => ih values

theorem bindParameters (c : Closure Value) :
    Silent T A B (Exec.bindParameters c) (Exec.bindParameters (T.closure c)) := by
  simp only [Exec.bindParameters, Closure.map]
  cases c.signature with
  | none => exact pure ()
  | some signature => exact (takeArguments _).bind fun values => bindInto signature.params values

/-! ### All operations -/

theorem primitive (p : Primitive) : Next T A B (Exec.primitive p) (Exec.primitive p) := by
  cases p with
  | ifElse => exact ifElse
  | call =>
    simp only [Exec.primitive, map_eq_pure_bind]
    exact (popCallable _).bind fun v => pure (some v)
  | attempt => exact attempt
  | cond => exact plain cond
  | function => exact plain function
  | lambda => exact plain lambda
  | condFunction => exact plain condFunction
  | loop => exact plain loop
  | iterate withIndex => exact plain (iterate withIndex)
  | «break» => exact throw .break
  | breakIf => exact plain breakIf
  | tailCall => exact plain tailCall
  | define => exact plain defineName
  | dataDef => exact plain dataDef
  | dup => exact plain dup
  | pop => exact plain drop
  | swap => exact plain swap
  | copySecond => exact plain copySecond
  | rot => exact plain rot
  | clear => exact plain clear
  | depth => exact plain depth
  | arithmetic op => exact plain (binary fun v w => T.arithmetic v w op)
  | neg => exact plain (unary T.negate)
  | equal => exact plain (binary fun v w => by simp [Except.map])
  | notEqual => exact plain (binary fun v w => by simp [Except.map, bne])
  | compare c => exact plain (binary fun v w => T.compare v w c)
  | not => exact plain ((popBool _).bind fun _ => pushPlain rfl)
  | and => exact plain (logical _ _)
  | or => exact plain (logical _ _)
  | append => exact plain append
  | length => exact plain (unary T.length)
  | nth => exact plain nth
  | concat => exact plain concat
  | raise => exact plain raise
  | isError => exact plain (unary fun v => by simp [Except.map])
  | errorMessage => exact plain (unary T.errorMessage)
  | sleep => exact plain sleep
  | assertion kind => exact plain (assertion kind)

theorem dataOp (d : DataOp Value) : Next T A B (Exec.dataOp d) (Exec.dataOp (d.map T.value)) := by
  obtain ⟨name, action⟩ := d
  have test := fun (action : DataAction Value) => unary (T := T) (A := A) (B := B)
    (f := fun v => .ok (.bool ((action.test? v).getD false)))
    (g := fun v => .ok (.bool (((action.map T.value).test? v).getD false)))
    fun v => by simp [Except.map]
  cases action with
  | construct type fields types =>
    refine plain ((collect fields types).bind fun bound => ?_)
    have made := pushArray (T := T) (A := A) (B := B)
      (.sym instanceTag :: .sym type :: bound.map Prod.snd)
    simpa [Function.comp_def] using made
  | get field => exact plain ((popInstance _ _).bind fun found => push found.2)
  | set field types =>
    exact plain (pop.bind fun v => (popInstance _ _).bind fun found =>
      writeField found.1 field types v)
  | update field types => exact beginUpdate _ _ types
  | isInstance type => exact plain (test (.isInstance type))
  | isVariant variants => exact plain (test (.isVariant variants))

theorem deliver (r : Reply Value) :
    Silent T A B (Exec.deliver r) (Exec.deliver (r.map T.value)) := by
  cases r with
  | value v => exact push v
  | nothing => exact pure ()
  | failure e => exact fail e

end Renders

/-- The operation is awaited although its answer is there, and the translation does not wait. -/
def Answers (T : Translation) (o : Operation Value) (r : Reply Value) : Prop :=
  T.prompt = true ∧ ∃ name label cancel, o = .builtin ⟨name, .await ⟨label, .ready r, cancel⟩⟩

theorem Renders.operation (o : Operation Value) :
    Next T A B (Exec.operation o) (Exec.operation (o.translate T.value T.prompt)) ∨
      ∃ r, T.Answers o r := by
  cases o with
  | data d => exact .inl (dataOp d)
  | builtin b =>
    obtain ⟨name, action⟩ := b
    cases action with
    | primitive p => exact .inl (primitive p)
    | reply r => exact .inl (plain (deliver r))
    | await a =>
      obtain ⟨label, future, cancel⟩ := a
      have waits : Next T A B (MonadExcept.throw (Signal.await ⟨label, future, cancel⟩))
          (MonadExcept.throw (Signal.await ⟨label, future.map T.value, cancel⟩)) :=
        throw (.await ⟨label, future, cancel⟩)
      cases prompt : T.prompt with
      | false => exact .inl waits
      | true =>
        cases future with
        | ready r => exact .inr ⟨r, prompt, name, label, cancel, rfl⟩
        | later milliseconds r => exact .inl waits
        | never => exact .inl waits

end Catena.Translation
