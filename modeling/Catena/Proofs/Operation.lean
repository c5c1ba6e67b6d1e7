import Catena.Proofs.Parallel

set_option autoImplicit false

/-!
Every operation runs in parallel with itself: what it answers, whether it fails and what it leaves
depend only on what lies above the ground.
-/

namespace Catena.Parallel

variable {A B : Ground} {p : Pairing}

/-- Operations that may hand over to a value. -/
abbrev Next (A B : Ground) (p : Pairing) (x y : Exec (Option Value)) : Prop :=
  Parallel A B p (fun q => Option.Rel (Value.Same q.rel)) x y

theorem plain {x y : Exec Unit} (run : Parallel.Silent A B p x y) :
    Next A B p (Exec.plain x) (Exec.plain y) :=
  run.bind fun _ _ _ _ _ => pure fun _ _ => .none

/-! ### Operators on operands -/

theorem unary {f g : Value → Except RuntimeError Value}
    (fg : ∀ q v w, p ≤ q → v.Same q.rel w → Ends (Value.Same q.rel) (f v) (g w)) :
    Parallel.Silent A B p (Exec.unary f) (Exec.unary g) := by
  refine pop.bind fun q v w le vw => ?_
  have result := ofExcept (A := A) (B := B) (fg q v w le vw) fun _ _ _ le' same => same.grow le'
  exact result.bind fun _ _ _ _ same => push same

theorem binary {f g : Value → Value → Except RuntimeError Value}
    (fg : ∀ q v v' w w', p ≤ q → v.Same q.rel v' → w.Same q.rel w' →
      Ends (Value.Same q.rel) (f v w) (g v' w')) :
    Parallel.Silent A B p (Exec.binary f) (Exec.binary g) := by
  refine pop.bind fun q w w' le ww => ?_
  refine pop.bind fun q' v v' le' vv => ?_
  have ends := fg q' v v' w w' (le_trans le le') vv (ww.grow le')
  have result := ofExcept (A := A) (B := B) ends fun _ _ _ le'' same => same.grow le''
  exact result.bind fun _ _ _ _ same => push same

theorem logical (primitive : Primitive) (f : Bool → Bool → Bool) :
    Parallel.Silent A B p (Exec.logical primitive f) (Exec.logical primitive f) := by
  refine (popBool _).bind fun q b b' _ same => ?_
  refine (popBool _).bind fun q' a a' _ same' => ?_
  subst same same'
  exact push (.plain rfl)

theorem dup : Parallel.Silent A B p Exec.dup Exec.dup :=
  (peek 0).bind fun _ _ _ _ same => push same

theorem drop : Parallel.Silent A B p Exec.drop Exec.drop :=
  pop.bind fun _ _ _ _ _ => pure fun _ _ => trivial

theorem swap : Parallel.Silent A B p Exec.swap Exec.swap := by
  refine pop.bind fun q b b' _ bb => ?_
  refine pop.bind fun q' a a' le aa => ?_
  refine (push (bb.grow le)).bind fun q'' _ _ le' _ => ?_
  exact push (aa.grow le')

theorem copySecond : Parallel.Silent A B p Exec.copySecond Exec.copySecond :=
  (peek 1).bind fun _ _ _ _ same => push same

theorem rot : Parallel.Silent A B p Exec.rot Exec.rot := by
  refine pop.bind fun q₁ c c' _ cc => ?_
  refine pop.bind fun q₂ b b' le₂ bb => ?_
  refine pop.bind fun q₃ a a' le₃ aa => ?_
  refine (push (bb.grow le₃)).bind fun q₄ _ _ le₄ _ => ?_
  refine (push (cc.grow (le_trans le₂ (le_trans le₃ le₄)))).bind fun q₅ _ _ le₅ _ => ?_
  exact push (aa.grow (le_trans le₄ le₅))

theorem clear : Parallel.Silent A B p Exec.clear Exec.clear := by
  refine update (fun _ => rfl) (fun _ => rfl) fun q own own' m n _ alike => ?_
  rw [alike.operands.floor]
  exact ⟨own, own', alike.setOperands (alike.operands.truncate _) rfl rfl⟩

theorem depth : Parallel.Silent A B p Exec.depth Exec.depth := by
  refine get.bind fun q m n _ alike => ?_
  obtain ⟨own, own', alike⟩ := alike
  rw [alike.operands.accessible_eq]
  exact push (.plain rfl)

theorem append : Parallel.Silent A B p Exec.append Exec.append := by
  refine fresh.bind fun q i j _ ij => ?_
  exact binary fun q' v v' w w' le vv ww => Value.append_same (le.1 i j ij) vv ww

theorem concat : Parallel.Silent A B p Exec.concat Exec.concat := by
  refine fresh.bind fun q i j _ ij => ?_
  exact binary fun q' v v' w w' le vv ww => Value.concat_same (le.1 i j ij) vv ww

theorem nth : Parallel.Silent A B p Exec.nth Exec.nth := by
  refine (popInt _).bind fun q i j _ same => ?_
  subst same
  exact unary fun q' v w _ vw => Value.nth_same i vw

theorem record (kind : AssertionKind) (passed : Bool) (a b : List Value) :
    Parallel.Silent A B p (Exec.record kind passed a) (Exec.record kind passed b) := by
  refine update (fun _ => rfl) (fun _ => rfl) fun q own own' m n _ alike => ?_
  exact ⟨own, own', { alike with }⟩

theorem assertion (kind : AssertionKind) :
    Parallel.Silent A B p (Exec.assertion kind) (Exec.assertion kind) := by
  refine pop.bind fun q w w' _ ww => ?_
  refine pop.bind fun q' v v' le vv => ?_
  have verdict := AssertionKind.verdict_same q'.one kind vv (ww.grow le)
  refine (check verdict).bind fun q'' a b _ same => ?_
  subst same
  exact record kind a _ _

/-! ### Operators that choose, repeat and leave -/

theorem ifElse : Next A B p Exec.ifElse Exec.ifElse := by
  have quotation : Parallel.Valued A B p
      (Exec.popAs Primitive.ifElse.name "a quotation"
        fun v => if v.isQuotation then some v else none)
      (Exec.popAs Primitive.ifElse.name "a quotation"
        fun v => if v.isQuotation then some v else none) := by
    refine popAs _ _ fun q v w vw => ?_
    rw [vw.isQuotation]
    by_cases holds : v.isQuotation = true
    · rw [if_pos holds, if_pos holds]
      exact .some vw
    · rw [if_neg holds, if_neg holds]
      exact .none
  refine quotation.bind fun q first first' _ ff => ?_
  refine get.bind fun q₁ m n le₁ alike => ?_
  obtain ⟨own, own', alike⟩ := alike
  rw [alike.operands.topIs Value.Same.isQuotation]
  by_cases two : m.operands.topIs Value.isQuotation = true
  · rw [if_pos two, if_pos two]
    refine pop.bind fun q₂ v v' le₂ vv => ?_
    refine (popBool _).bind fun q₃ b b' le₃ same => ?_
    subst same
    cases b with
    | true => exact pure fun _ le => .some (vv.grow (le_trans le₃ le))
    | false =>
      exact pure fun _ le => .some (ff.grow (le_trans le₁ (le_trans le₂ (le_trans le₃ le))))
  · rw [if_neg two, if_neg two]
    refine (popBool _).bind fun q₂ b b' le₂ same => ?_
    subst same
    cases b with
    | true => exact pure fun _ le => .some (ff.grow (le_trans le₁ (le_trans le₂ le)))
    | false => exact pure fun _ _ => .none

theorem popPairs (operator : String) :
    Parallel A B p
      (fun q (x y : Value × List (Value × Value)) => x.1.Same q.rel y.1 ∧ SamePairs q.rel x.2 y.2)
      (Exec.popPairs operator) (Exec.popPairs operator) := by
  refine pop.bind fun q v w _ vw => ?_
  have other := mismatch (A := A) (B := B)
    (V := fun q (x y : Value × List (Value × Value)) =>
      x.1.Same q.rel y.1 ∧ SamePairs q.rel x.2 y.2) operator "an array of pairs" vw
  cases vw with
  | plain free => cases v <;> first | exact other | cases free
  | @array i j a b ij ab =>
    have pairs := ofExcept (A := A) (B := B) ab.readPairs fun _ _ _ le same => same.grow le
    refine pairs.bind fun q' x y le same => ?_
    exact pure fun _ le' =>
      ⟨.array ((le_trans le le').1 i j ij) (ab.grow (le_trans le le')), same.grow le'⟩
  | quote => exact other
  | closure => exact other
  | op => exact other

theorem cond : Parallel.Silent A B p Exec.cond Exec.cond :=
  (popPairs _).bind fun _ _ _ _ same => pushFrame (.condTest same.2) rfl rfl

theorem loop : Parallel.Silent A B p Exec.loop Exec.loop :=
  (popBody _).bind fun _ _ _ _ same => pushFrame (.loop same) rfl rfl

theorem popSource (operator : String) :
    Parallel A B p (fun q => Source.Same q.rel) (Exec.popSource operator)
      (Exec.popSource operator) := by
  refine pop.bind fun q v w _ vw => ?_
  have other := mismatch (A := A) (B := B) (V := fun q => Source.Same q.rel) operator
    "a range, array or string" vw
  cases vw with
  | plain free =>
    cases v with
    | int stop =>
      refine (popInt operator).bind fun q' i j _ same => ?_
      subst same
      exact pure fun _ _ => .range
    | str text => exact pure fun _ _ => .chars
    | _ => first | exact other | cases free
  | array _ ab => exact pure fun _ le => .items (ab.grow le)
  | quote => exact other
  | closure => exact other
  | op => exact other

theorem iterate (withIndex : Bool) :
    Parallel.Silent A B p (Exec.iterate withIndex) (Exec.iterate withIndex) := by
  refine (popBody _).bind fun q a b _ ab => ?_
  refine (popSource _).bind fun q' s t le st => ?_
  exact pushFrame (.iterate st (ab.grow le)) rfl rfl

theorem breakIf : Parallel.Silent A B p Exec.breakIf Exec.breakIf := by
  refine (popBool _).bind fun q a b _ same => ?_
  subst same
  cases a with
  | true => exact throw .break
  | false => exact pure fun _ _ => trivial

theorem tailCall : Parallel.Silent A B p Exec.tailCall Exec.tailCall := by
  refine pop.bind fun q v w _ vw => ?_
  have other := mismatch (A := A) (B := B) (V := fun _ (_ _ : Unit) => True)
    Primitive.tailCall.name "a closure" vw
  cases vw with
  | plain free =>
    cases v with
    | sym name =>
      refine get.bind fun q' m n _ alike => ?_
      obtain ⟨own, own', alike⟩ := alike
      have found := alike.active.get? name
      simp only [Scopes.get?]
      generalize m.scopes.active.get? name = x at found
      generalize n.scopes.active.get? name = y at found
      cases found with
      | none => exact fail _
      | @some u u' same =>
        have other := mismatch (A := A) (B := B) (V := fun _ (_ _ : Unit) => True)
          Primitive.tailCall.name "a closure" same
        cases same with
        | plain free => cases u <;> first | exact other | cases free
        | closure cd => exact throw (.tailCall cd)
        | array => exact other
        | quote => exact other
        | op => exact other
    | _ => first | exact other | cases free
  | closure cd => exact throw (.tailCall cd)
  | array => exact other
  | quote => exact other
  | op => exact other

theorem attempt : Next A B p Exec.attempt Exec.attempt := by
  refine (popCallable _).bind fun q v w _ vw => ?_
  intro q' own own' m n le alike
  have count := alike.operands.count_eq
  have frame : (Frame.attempt m.operands.count).Same q'.rel (.attempt n.operands.count) := by
    rw [count]
    exact .attempt
  have above : ∀ height ∈ (Frame.attempt m.operands.count).mark?,
      floorAbove A.items.length own ≤ height := by
    intro height held
    cases held
    exact alike.covered
  have pushed := alike.pushFrame frame rfl above fun _ _ => rfl
  exact pushFrameThen alike (.ok (le_refl q') (.some (vw.grow le)) pushed rfl rfl)

theorem raise : Parallel.Silent A B p Exec.raise Exec.raise := by
  refine (popStr _).bind fun q a b _ same => ?_
  subst same
  exact fail _

theorem sleep : Parallel.Silent A B p Exec.sleep Exec.sleep := by
  refine (popInt _).bind fun q a b _ same => ?_
  subst same
  by_cases negative : a.toInt < 0
  · rw [if_pos negative]
    exact fail _
  · rw [if_neg negative]
    exact throw (.await (.mk (.later .nothing)))

/-! ### Operators that make closures and bind names -/

theorem popSignature? :
    Parallel A B p (fun _ => Eq) Exec.popSignature? Exec.popSignature? := by
  refine get.bind fun q m n _ alike => ?_
  obtain ⟨own, own', alike⟩ := alike
  have top := alike.operands.peek 0
  generalize m.operands.peek 0 = x at top
  generalize n.operands.peek 0 = y at top
  have none : Parallel A B q (fun _ => Eq) (Pure.pure none : Exec (Option Signature))
      (Pure.pure none) := pure fun _ _ => rfl
  cases top with
  | error => exact none
  | @ok v w vw =>
    cases vw with
    | plain =>
      cases v with
      | signature s => exact pop.bind fun _ _ _ _ _ => pure fun _ _ => rfl
      | _ => exact none
    | array => exact none
    | quote => exact none
    | closure => exact none
    | op => exact none

theorem close (name : Option String) {a b : List Value} (ab : SameAll p.rel a b)
    (signature : Option Signature) :
    Parallel.Valued A B p (Exec.close name a signature) (Exec.close name b signature) := by
  refine fresh.bind fun q i j le ij => ?_
  refine get.bind fun q' m n le' alike => ?_
  obtain ⟨own, own', alike⟩ := alike
  have same : (Value.closure ⟨i, name, a, signature, m.scopes.active⟩).Same q'.rel
      (.closure ⟨j, name, b, signature, n.scopes.active⟩) :=
    .closure (.mk (le'.1 i j ij) (ab.grow (le_trans le le')) alike.active)
  exact pure fun _ le'' => same.grow le''

theorem function : Parallel.Silent A B p Exec.function Exec.function := by
  refine (popBody _).bind fun q a b _ ab => ?_
  refine popSignature?.bind fun q₁ s t le₁ same => ?_
  refine (popName _).bind fun q₂ name name' le₂ same' => ?_
  subst same same'
  exact (close (some name) (ab.grow (le_trans le₁ le₂)) s).bind fun _ _ _ _ vw => define name vw

theorem lambda : Parallel.Silent A B p Exec.lambda Exec.lambda := by
  refine (popBody _).bind fun q a b _ ab => ?_
  refine popSignature?.bind fun q₁ s t le same => ?_
  subst same
  exact (close none (ab.grow le) s).bind fun _ _ _ _ vw => push vw

theorem condFunction : Parallel.Silent A B p Exec.condFunction Exec.condFunction := by
  refine (popPairs _).bind fun q x y _ xy => ?_
  refine popSignature?.bind fun q₁ s t le₁ same => ?_
  refine (popName _).bind fun q₂ name name' le₂ same' => ?_
  subst same same'
  refine get.bind fun q₃ m n le₃ alike => ?_
  obtain ⟨own, own', alike⟩ := alike
  rw [alike.origin]
  have body : SameAll q₃.rel
      [x.1, .op (.builtin ⟨Primitive.cond.name, .primitive .cond⟩) m.origin]
      [y.1, .op (.builtin ⟨Primitive.cond.name, .primitive .cond⟩) m.origin] :=
    .cons (xy.1.grow (le_trans le₁ (le_trans le₂ le₃))) (.cons (.op (.builtin .primitive)) .nil)
  exact (close (some name) body s).bind fun _ _ _ _ vw => define name vw

theorem defineName : Parallel.Silent A B p Exec.defineName Exec.defineName := by
  refine (popName _).bind fun q name name' _ same => ?_
  subst same
  exact pop.bind fun _ _ _ _ vw => define name vw

theorem set_related {α β : Type} {R : α → β → Prop} {a : List α} {b : List β}
    (same : List.Forall₂ R a b) (index : Nat) {x : α} {y : β} (xy : R x y) :
    List.Forall₂ R (a.set index x) (b.set index y) := by
  induction same generalizing index with
  | nil => exact .nil
  | cons first rest ih =>
    cases index with
    | zero => exact .cons xy rest
    | succ index => exact .cons first (ih index)

theorem find?_first {α β : Type} {R : α → β → Prop} {a : List α} {b : List β} {f : α → Bool}
    {g : β → Bool} (same : List.Forall₂ R a b) (respects : ∀ x y, R x y → g y = f x) :
    Option.Rel R (a.find? f) (b.find? g) := by
  induction same with
  | nil => exact .none
  | @cons x y _ _ xy _ ih =>
    rw [List.find?_cons, List.find?_cons, respects x y xy]
    cases f x with
    | true => exact .some xy
    | false => exact ih

theorem declare (decl : Declaration) :
    Parallel.Silent A B p (Exec.change (·.declare decl)) (Exec.change (·.declare decl)) := by
  intro q own own' m n _ alike
  have operations : List.Forall₂ (DataOp.Same q.rel) (decl.operations m.scopes.active m.origin)
      (decl.operations n.scopes.active n.origin) := by
    rw [alike.origin]
    exact Declaration.operations_same decl alike.active m.origin
  have active : (m.scopes.active.insertAll (Declaration.entries m.origin
      (decl.operations m.scopes.active m.origin))).Same q.rel
      (n.scopes.active.insertAll (Declaration.entries n.origin
        (decl.operations n.scopes.active n.origin))) := by
    refine alike.active.insertAll ?_
    rw [alike.origin] at operations ⊢
    exact Declaration.entries_same m.origin operations
  have shadowing := find?_first
    (f := fun d => m.isBuiltin d.name) (g := fun d => n.isBuiltin d.name) operations
    fun d e de => by rw [alike.isBuiltin, de.name]
  simp only [Exec.change, Machine.declare]
  generalize List.find? _ (decl.operations m.scopes.active m.origin) = x at shadowing
  generalize List.find? _ (decl.operations n.scopes.active n.origin) = y at shadowing
  cases shadowing with
  | none => exact .ok (le_refl q) trivial (alike.setActive active) rfl rfl
  | some de =>
    simp only [de.name]
    exact .error (le_refl q) .error alike rfl rfl

theorem dataDef : Parallel.Silent A B p Exec.dataDef Exec.dataDef := by
  refine pop.bind fun q v w _ vw => ?_
  refine (popName _).bind fun q₁ name name' le same => ?_
  subst same
  refine (check (Declaration.read_same name (vw.grow le))).bind fun q₂ decl decl' _ same => ?_
  subst same
  exact declare decl

/-! ### Operations on instances -/

theorem popInstance (operator : String) (field : Field) :
    Parallel A B p
      (fun q (x y : List Value × Value) => SameAll q.rel x.1 y.1 ∧ x.2.Same q.rel y.2)
      (Exec.popInstance operator field) (Exec.popInstance operator field) := by
  refine popAs operator field.owner fun q v w vw => ?_
  have type := vw.instanceType?
  cases vw with
  | @array i j a b _ ab =>
    simp only [type]
    cases Value.instanceType? (.array i a) == some field.owner with
    | false => exact .none
    | true =>
      have element := getElem?_related (sameAll_iff.1 ab) field.index
      simp only
      generalize a[field.index]? = x at element
      generalize b[field.index]? = y at element
      cases element with
      | none => exact .none
      | some same => exact .some ⟨ab, same⟩
  | plain free => cases v <;> first | exact .none | cases free
  | _ => exact .none

theorem checkField (field : Field) {types types' : Scope} (same : types.Same p.rel types')
    {v w : Value} (vw : v.Same p.rel w) :
    Parallel.Silent A B p (Exec.checkField field types v) (Exec.checkField field types' w) := by
  simp only [Exec.checkField]
  cases field.type with
  | none => exact pure fun _ _ => trivial
  | some type =>
    refine get.bind fun q m n le alike => ?_
    obtain ⟨own, own', alike⟩ := alike
    have verdict := checkType_same (same.grow le) alike.active type (vw.grow le)
    refine (check verdict).bind fun q' a b _ ab => ?_
    subst ab
    cases a with
    | true => exact pure fun _ _ => trivial
    | false =>
      simp only [RuntimeError.fieldMismatch, vw.culprit]
      exact fail _

theorem writeField {a b : List Value} (ab : SameAll p.rel a b) (field : Field)
    {types types' : Scope} (same : types.Same p.rel types') {v w : Value} (vw : v.Same p.rel w) :
    Parallel.Silent A B p (Exec.writeField a field types v) (Exec.writeField b field types' w) := by
  refine (checkField field same vw).bind fun q _ _ le _ => ?_
  refine pushArray (sameAll_iff.2 ?_)
  exact set_related (sameAll_iff.1 (ab.grow le)) field.index (vw.grow le)

theorem beginUpdate (operator : String) (field : Field) {types types' : Scope}
    (same : types.Same p.rel types') :
    Next A B p (Exec.beginUpdate operator field types)
      (Exec.beginUpdate operator field types') := by
  refine (popCallable _).bind fun q v w le vw => ?_
  refine (popInstance _ _).bind fun q' x y le' xy => ?_
  intro q'' own own' m n le'' alike
  have count := alike.operands.count_eq
  have up := le_trans le' le''
  have frame : (Frame.update x.1 field types m.operands.count).Same q''.rel
      (.update y.1 field types' n.operands.count) := by
    rw [count]
    exact .update (xy.1.grow le'') (same.grow (le_trans le up))
  have held := Alike.hold (f := .update x.1 field types m.operands.count) (A := A) (B := B) alike
    frame rfl
  refine pushFrameThen alike ?_
  have rest : Next A B q'' (do Exec.push x.2; Pure.pure (some v))
      (do Exec.push y.2; Pure.pure (some w)) :=
    (push (xy.2.grow le'')).bind fun q₃ _ _ le₃ _ =>
      pure fun _ le₄ => .some (vw.grow (le_trans up (le_trans le₃ le₄)))
  exact rest q'' _ _ _ _ (le_refl q'') held

/-! ### Arguments -/

theorem popMany (wanted : Nat) :
    Parallel A B p (fun q => SameAll q.rel) (Exec.popMany wanted) (Exec.popMany wanted) := by
  induction wanted generalizing p with
  | zero => exact pure fun _ _ => .nil
  | succ wanted ih =>
    refine pop.bind fun q v w _ vw => ?_
    refine ih.bind fun q' a b le ab => ?_
    refine pure fun _ le' => sameAll_iff.2 ?_
    exact List.rel_append (sameAll_iff.1 (ab.grow le')) (.cons (vw.grow (le_trans le le')) .nil)

theorem takeArguments (wanted : Nat) :
    Parallel A B p (fun q => SameAll q.rel) (Exec.takeArguments wanted)
      (Exec.takeArguments wanted) := by
  refine get.bind fun q m n _ alike => ?_
  obtain ⟨own, own', alike⟩ := alike
  simp only [alike.operands.accessible_eq]
  by_cases few : m.operands.accessible < wanted
  · rw [if_pos few]
    exact fail _
  · rw [if_neg few]
    exact popMany wanted

theorem collectInto {types types' : Scope} (params : List Param) {a b : List Value}
    (same : types.Same p.rel types') (ab : SameAll p.rel a b) :
    Parallel A B p (fun q => SameEntries q.rel) (Exec.collectInto types params a)
      (Exec.collectInto types' params b) := by
  induction params generalizing p a b with
  | nil => exact pure fun _ _ => .nil
  | cons param params ih =>
    cases ab with
    | nil => exact pure fun _ _ => .nil
    | cons vw ab =>
      refine get.bind fun q m n le alike => ?_
      obtain ⟨own, own', alike⟩ := alike
      have checked := Param.check_same param (same.grow le) alike.active (vw.grow le)
      refine (check checked).bind fun q₁ _ _ le₁ _ => ?_
      have up := le_trans le le₁
      refine (ih (same.grow up) (ab.grow up)).bind fun q₂ x y le₂ xy => ?_
      exact pure fun _ le₃ =>
        .cons (vw.grow (le_trans up (le_trans le₂ le₃))) (xy.mono le₃.1)

theorem collect (signature : Signature) {types types' : Scope} (same : types.Same p.rel types') :
    Parallel A B p (fun q => SameEntries q.rel) (Exec.collect signature types)
      (Exec.collect signature types') :=
  (takeArguments _).bind fun _ _ _ le ab => collectInto signature.params (same.grow le) ab

theorem bindInto (params : List Param) {a b : List Value} (ab : SameAll p.rel a b) :
    Parallel.Silent A B p (Exec.bindInto params a) (Exec.bindInto params b) := by
  induction params generalizing p a b with
  | nil => exact pure fun _ _ => trivial
  | cons param params ih =>
    cases ab with
    | nil => exact pure fun _ _ => trivial
    | cons vw ab =>
      refine get.bind fun q m n le alike => ?_
      obtain ⟨own, own', alike⟩ := alike
      have checked := Param.check_same param alike.active alike.active (vw.grow le)
      refine (check checked).bind fun q₁ _ _ le₁ _ => ?_
      have up := le_trans le le₁
      refine (put param.name (vw.grow up)).bind fun q₂ _ _ le₂ _ => ?_
      exact ih (ab.grow (le_trans up le₂))

theorem bindSignature (signature : Signature) :
    Parallel.Silent A B p (Exec.bind signature) (Exec.bind signature) :=
  (takeArguments _).bind fun _ _ _ _ ab => bindInto signature.params ab

theorem bindParameters {c d : Closure Value} (cd : c.Same p.rel d) :
    Parallel.Silent A B p (Exec.bindParameters c) (Exec.bindParameters d) := by
  simp only [Exec.bindParameters, cd.signature]
  cases c.signature with
  | none => exact pure fun _ _ => trivial
  | some signature => exact bindSignature signature

/-! ### All operations -/

theorem primitive (o : Primitive) : Next A B p (Exec.primitive o) (Exec.primitive o) := by
  cases o with
  | ifElse => exact ifElse
  | call => exact (popCallable _).map fun _ _ _ _ vw => .some vw
  | attempt => exact attempt
  | cond => exact plain cond
  | function => exact plain function
  | lambda => exact plain lambda
  | condFunction => exact plain condFunction
  | loop => exact plain loop
  | iterate withIndex => exact plain (iterate withIndex)
  | «break» => exact throw .break
  | breakIf => exact plain breakIf
  | tailCall => exact plain tailCall
  | define => exact plain defineName
  | dataDef => exact plain dataDef
  | dup => exact plain dup
  | pop => exact plain drop
  | swap => exact plain swap
  | copySecond => exact plain copySecond
  | rot => exact plain rot
  | clear => exact plain clear
  | depth => exact plain depth
  | arithmetic op => exact plain (binary fun _ _ _ _ _ _ vv ww => op.apply_same vv ww)
  | neg => exact plain (unary fun _ _ _ _ vw => negate_same vw)
  | equal =>
    refine plain (binary fun q v v' w w' _ vv ww => ?_)
    rw [vv.beq q.one ww]
    exact .ok (.plain rfl)
  | notEqual =>
    refine plain (binary fun q v v' w w' _ vv ww => ?_)
    rw [bne, bne, vv.beq q.one ww]
    exact .ok (.plain rfl)
  | compare c => exact plain (binary fun _ _ _ _ _ _ vv ww => c.apply_same vv ww)
  | not =>
    refine plain ((popBool _).bind fun q a b _ same => ?_)
    subst same
    exact push (.plain rfl)
  | and => exact plain (logical _ _)
  | or => exact plain (logical _ _)
  | append => exact plain append
  | length => exact plain (unary fun _ _ _ _ vw => Value.length_same vw)
  | nth => exact plain nth
  | concat => exact plain concat
  | raise => exact plain raise
  | isError =>
    refine plain (unary fun q v w _ vw => ?_)
    rw [vw.isError]
    exact .ok (.plain rfl)
  | errorMessage => exact plain (unary fun _ _ _ _ vw => Value.errorMessage_same vw)
  | sleep => exact plain sleep
  | assertion kind => exact plain (assertion kind)

theorem dataOp {d e : DataOp Value} (de : d.Same p.rel e) :
    Next A B p (Exec.dataOp d) (Exec.dataOp e) := by
  cases de with
  | @construct name type fields s t st =>
    refine plain ((collect fields st).bind fun q a b _ ab => ?_)
    have values : SameAll q.rel (a.map Prod.snd) (b.map Prod.snd) := by
      refine sameAll_iff.2 (List.rel_map (fun _ _ xy => xy.2) (sameEntries_iff.1 ab))
    exact pushArray (.cons (.plain rfl) (.cons (.plain rfl) values))
  | get => exact plain ((popInstance _ _).bind fun _ _ _ _ xy => push xy.2)
  | @set name field s t st =>
    refine plain (pop.bind fun q v w le vw => ?_)
    refine (popInstance _ _).bind fun q' x y le' xy => ?_
    exact writeField xy.1 field (st.grow (le_trans le le')) (vw.grow le')
  | update st => exact beginUpdate _ _ st
  | isInstance =>
    refine plain (unary fun q v w _ vw => ?_)
    simp only [DataAction.test?, vw.instanceType?]
    exact .ok (.plain rfl)
  | isVariant =>
    refine plain (unary fun q v w _ vw => ?_)
    simp only [DataAction.test?, vw.instanceType?]
    exact .ok (.plain rfl)

theorem deliver {a b : Reply Value} (ab : a.Same p.rel b) :
    Parallel.Silent A B p (Exec.deliver a) (Exec.deliver b) := by
  cases ab with
  | value vw => exact push vw
  | nothing => exact pure fun _ _ => trivial
  | failure => exact fail _

theorem operation {o o' : Operation Value} (same : o.Same p.rel o') :
    Next A B p (Exec.operation o) (Exec.operation o') := by
  cases same with
  | data de => exact dataOp de
  | builtin bc =>
    cases bc with
    | primitive => exact primitive _
    | reply rs => exact plain (deliver rs)
    | await ab => exact throw (.await ab)

end Catena.Parallel
