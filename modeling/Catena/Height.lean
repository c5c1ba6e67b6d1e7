import Catena.Activation
import Catena.Operator

set_option autoImplicit false

/-!
What actions do to the frames and to the height of the operand stack. Most operations leave the
frames alone and raise the stack by one at most; those that add frames pay for them with operands.
Invoking a value and working off the frames end for this reason.
-/

namespace Catena

namespace Exec

variable {α β : Type}

/-- What is left of a machine when an action has ended. -/
def left : EStateM.Result Signal Machine α → Machine
  | .ok _ m => m
  | .error _ m => m

theorem bind_eq_ok {x : Exec α} {f : α → Exec β} {m m' : Machine} {b : β}
    (h : (x >>= f) m = .ok b m') : ∃ a mid, x m = .ok a mid ∧ f a mid = .ok b m' := by
  simp only [Bind.bind, EStateM.bind] at h
  split at h
  · next a mid hx => exact ⟨a, mid, hx, h⟩
  · cases h

/-- A sequence of actions fails in the first of them or after it. -/
theorem bind_eq_error {x : Exec α} {f : α → Exec β} {m m' : Machine} {signal : Signal}
    (h : (x >>= f) m = .error signal m') :
    x m = .error signal m' ∨ ∃ a mid, x m = .ok a mid ∧ f a mid = .error signal m' := by
  simp only [Bind.bind, EStateM.bind] at h
  split at h
  · next a mid hx => exact .inr ⟨a, mid, hx, h⟩
  · next hx =>
    cases h
    exact .inl hx

theorem pure_eq_ok {a b : α} {m m' : Machine} (h : (pure a : Exec α) m = .ok b m') :
    b = a ∧ m' = m := by
  cases h
  exact ⟨rfl, rfl⟩

theorem get_apply (m : Machine) : (get : Exec Machine) m = .ok m m := rfl

theorem throw_apply (signal : Signal) (m : Machine) :
    (throw signal : Exec α) m = .error signal m := rfl

theorem tryCatch_apply (x : Exec α) (handle : Signal → Exec α) (m : Machine) :
    tryCatch x handle m =
      match x m with
      | .error signal m' => handle signal m'
      | .ok a m' => .ok a m' := by
  change EStateM.tryCatch x handle m = _
  delta EStateM.tryCatch
  cases x m <;> rfl

theorem get_eq_ok {m m' n : Machine} (h : (get : Exec Machine) m = .ok n m') :
    n = m ∧ m' = m := by
  cases h
  exact ⟨rfl, rfl⟩

/-- A handler that only cleans up does not turn a signal into a return. -/
theorem tryCatch_eq_ok {x : Exec α} {cleanUp : Exec Unit} {m m' : Machine} {a : α}
    (h : tryCatch x (fun signal => do cleanUp; throw signal) m = .ok a m') : x m = .ok a m' := by
  rw [tryCatch_apply] at h
  split at h
  · obtain ⟨_, _, _, rest⟩ := bind_eq_ok h
    cases rest
  · next ran => exact ran.trans h

/-- When the action returns, the frames are what they were and the stack is at most `gain`
higher. -/
def Local (gain : Int) (x : Exec α) : Prop :=
  ∀ m a m', x m = .ok a m' →
    m'.frames = m.frames ∧ (m'.operands.count : Int) ≤ m.operands.count + gain

theorem Local.mono {j k : Int} {x : Exec α} (h : Local j x) (le : j ≤ k) : Local k x := by
  intro m a m' run
  have := h m a m' run
  exact ⟨this.1, by omega⟩

theorem Local.bind {j k : Int} {x : Exec α} {f : α → Exec β} (hx : Local j x)
    (hf : ∀ a, Local k (f a)) : Local (j + k) (x >>= f) := by
  intro m b m' run
  obtain ⟨a, mid, runX, runF⟩ := bind_eq_ok run
  have first := hx m a mid runX
  have second := hf a mid b m' runF
  exact ⟨second.1.trans first.1, by omega⟩

theorem Local.map {k : Int} {x : Exec α} (f : α → β) (h : Local k x) : Local k (f <$> x) := by
  intro m b m' run
  simp only [Functor.map, EStateM.map] at run
  split at run
  · next a mid hx => cases run; exact h _ _ _ hx
  · cases run

theorem local_pure (a : α) : Local 0 (pure a : Exec α) := by
  intro m b m' run
  cases run
  simp

theorem local_throw (k : Int) (signal : Signal) : Local k (throw signal : Exec α) := by
  intro m a m' run
  cases run

theorem local_fail (k : Int) (e : RuntimeError) : Local k (fail e : Exec α) := local_throw k _

theorem local_ofExcept (r : Except RuntimeError α) : Local 0 (ofExcept r) := by
  cases r with
  | ok a => exact local_pure a
  | error e => exact local_fail 0 e

theorem local_get : Local 0 (get : Exec Machine) := by
  intro m a m' run
  cases run
  simp

theorem local_modify {f : Machine → Machine} {k : Int}
    (h : ∀ m, (f m).frames = m.frames ∧ ((f m).operands.count : Int) ≤ m.operands.count + k) :
    Local k (modify f : Exec Unit) := by
  intro m a m' run
  cases run
  exact h m

theorem local_push (v : Value) : Local 1 (push v) :=
  local_modify fun m => by simp

theorem local_pop : Local (-1) pop := by
  intro m v m' run
  unfold pop at run
  split at run
  · next hp =>
    cases run
    have := Operands.count_of_pop hp
    exact ⟨rfl, by simp only; omega⟩
  · cases run

theorem local_peek (offset : Nat) : Local 0 (peek offset) :=
  local_get.bind fun _ => local_ofExcept _

theorem local_popAs {operator expected : String} {read? : Value → Option α} :
    Local (-1) (popAs operator expected read?) := by
  unfold popAs
  refine (local_pop.bind (k := 0) fun v => ?_).mono (by decide)
  split
  · exact local_pure _
  · exact local_fail 0 _

theorem local_fresh : Local 0 fresh := by
  intro m a m' run
  cases run
  simp

theorem local_pushArray (items : List Value) : Local 1 (pushArray items) :=
  local_fresh.bind fun _ => local_push _

theorem local_change {f : Machine → Except RuntimeError Machine}
    (h : ∀ m m', f m = .ok m' → m'.frames = m.frames ∧ m'.operands = m.operands) :
    Local 0 (change f) := by
  intro m a m' run
  unfold change at run
  split at run
  · next m'' hf =>
    cases run
    have := h _ _ hf
    simp [this]
  · cases run

theorem local_define {name : String} {v : Value} : Local 0 (define name v) :=
  local_change fun m m' h => by
    unfold Machine.define at h
    split at h <;> cases h
    exact ⟨rfl, rfl⟩

theorem local_put {name : String} {v : Value} : Local 0 (put name v) :=
  local_modify fun m => by simp

theorem local_forbid : Local 0 forbid :=
  local_modify fun m => by simp

/-! ### Operators on operands -/

theorem local_unary (f : Value → Except RuntimeError Value) : Local 0 (unary f) :=
  (local_pop.bind fun _ => (local_ofExcept _).bind fun _ => local_push _).mono (by omega)

theorem local_binary (f : Value → Value → Except RuntimeError Value) : Local (-1) (binary f) :=
  (local_pop.bind fun _ => local_pop.bind fun _ =>
    (local_ofExcept _).bind fun _ => local_push _).mono (by omega)

theorem local_logical (p : Primitive) (f : Bool → Bool → Bool) : Local (-1) (logical p f) :=
  (local_popAs.bind fun _ => local_popAs.bind fun _ => local_push _).mono (by omega)

theorem local_dup : Local 1 dup :=
  (local_peek 0).bind fun _ => local_push _

theorem local_copySecond : Local 1 copySecond :=
  (local_peek 1).bind fun _ => local_push _

theorem local_drop : Local (-1) drop :=
  (local_pop.bind fun _ => local_pure _).mono (by omega)

theorem local_swap : Local 0 swap :=
  (local_pop.bind fun _ => local_pop.bind fun _ =>
    (local_push _).bind fun _ => local_push _).mono (by omega)

theorem local_rot : Local 0 rot :=
  (local_pop.bind fun _ => local_pop.bind fun _ => local_pop.bind fun _ =>
    (local_push _).bind fun _ => (local_push _).bind fun _ => local_push _).mono (by omega)

theorem local_clear : Local 0 clear :=
  local_modify fun m => by
    have := m.operands.count_truncate_le m.operands.floor
    simp only [true_and]
    omega

theorem local_depth : Local 1 depth :=
  local_get.bind fun _ => local_push _

theorem local_append : Local (-1) append :=
  local_fresh.bind fun _ => local_binary _

theorem local_concat : Local (-1) concat :=
  local_fresh.bind fun _ => local_binary _

theorem local_nth : Local (-1) nth :=
  local_popAs.bind fun _ => local_unary _

theorem local_record {kind : AssertionKind} {passed : Bool} {operands : List Value} :
    Local 0 (record kind passed operands) :=
  local_modify fun m => by simp

theorem local_assertion (kind : AssertionKind) : Local (-2) (assertion kind) :=
  (local_pop.bind fun _ => local_pop.bind fun _ => (local_ofExcept _).bind fun _ =>
    local_record).mono (by omega)

/-! ### Operators that choose and leave -/

theorem local_ifElse : Local (-1) ifElse := by
  unfold ifElse
  refine (local_popAs.bind (k := 0) fun _ => local_get.bind (k := 0) fun _ => ?_).mono (by decide)
  split
  · refine (local_pop.bind (k := -1) fun _ => ?_).mono (k := 0) (by decide)
    refine local_popAs.bind (k := 0) fun _ => ?_
    split <;> exact local_pure _
  · refine (local_popAs.bind (k := 0) fun _ => ?_).mono (by decide)
    split <;> exact local_pure _

theorem local_breakIf : Local (-1) breakIf := by
  unfold breakIf
  refine (local_popAs.bind (k := 0) fun _ => ?_).mono (by decide)
  split
  · exact local_throw 0 _
  · exact local_pure _

theorem local_tailCall (k : Int) : Local k tailCall := by
  unfold tailCall
  refine (local_pop.bind (k := k + 1) fun v => ?_).mono (by omega)
  split
  · exact local_throw _ _
  · refine (local_get.bind (k := k + 1) fun m => ?_).mono (by omega)
    split
    · exact local_throw _ _
    · exact local_fail _ _
    · exact local_fail _ _
  · exact local_fail _ _

theorem local_raise (k : Int) : Local k raise :=
  (local_popAs.bind fun _ => local_fail (k + 1) _).mono (by omega)

theorem local_sleep (k : Int) : Local k sleep := by
  unfold sleep
  refine (local_popAs.bind (k := k + 1) fun _ => ?_).mono (by omega)
  split
  · exact local_fail _ _
  · exact local_throw _ _

/-! ### Operators that define -/

theorem local_popSignature? : Local 0 popSignature? := by
  unfold popSignature?
  refine local_get.bind (k := 0) fun _ => ?_
  split
  · exact (local_pop.bind fun _ => local_pure _).mono (by decide)
  · exact local_pure _

theorem local_close {name : Option String} {body : List Value} {signature : Option Signature} :
    Local 0 (close name body signature) :=
  local_fresh.bind fun _ => local_get.bind fun _ => local_pure _

theorem local_function : Local 0 function :=
  (local_popAs.bind fun _ => local_popSignature?.bind fun _ => local_popAs.bind fun _ =>
    local_close.bind fun _ => local_define).mono (by omega)

theorem local_lambda : Local 0 lambda :=
  (local_popAs.bind fun _ => local_popSignature?.bind fun _ =>
    local_close.bind fun _ => local_push _).mono (by omega)

theorem local_popPairs {operator : String} : Local (-1) (popPairs operator) := by
  unfold popPairs
  refine (local_pop.bind (k := 0) fun v => ?_).mono (by decide)
  split
  · exact (local_ofExcept _).bind fun _ => local_pure _
  · exact local_fail 0 _

theorem local_condFunction : Local 0 condFunction :=
  (local_popPairs.bind fun _ => local_popSignature?.bind fun _ => local_popAs.bind fun _ =>
    local_get.bind fun _ => local_close.bind fun _ => local_define).mono (by omega)

theorem local_defineName : Local 0 defineName :=
  (local_popAs.bind fun _ => local_pop.bind fun _ => local_define).mono (by omega)

theorem local_declare (decl : Declaration) : Local 0 (change (·.declare decl)) :=
  local_change fun m m' h => by
    simp only [Machine.declare] at h
    split at h <;> cases h
    exact ⟨rfl, rfl⟩

theorem local_dataDef : Local 0 dataDef :=
  (local_pop.bind fun _ => local_popAs.bind fun _ => (local_ofExcept _).bind fun _ =>
    local_declare _).mono (by omega)

/-! ### Operations of data declarations -/

theorem local_popMany (n : Nat) : Local 0 (popMany n) := by
  induction n with
  | zero => exact local_pure _
  | succ n ih => exact (local_pop.bind fun _ => ih.bind fun _ => local_pure _).mono (by decide)

theorem local_takeArguments (n : Nat) : Local 0 (takeArguments n) := by
  unfold takeArguments
  refine local_get.bind (k := 0) fun _ => ?_
  simp only
  split
  · exact local_fail 0 _
  · exact local_popMany _

theorem local_collectInto (types : Scope) (params : List Param) (values : List Value) :
    Local 0 (collectInto types params values) := by
  fun_induction collectInto types params values with
  | case1 p params v values ih =>
    exact local_get.bind fun _ => (local_ofExcept _).bind fun _ => ih.bind fun _ => local_pure _
  | case2 => exact local_pure _

theorem local_collect (signature : Signature) (types : Scope) : Local 0 (collect signature types) :=
  (local_takeArguments _).bind fun _ => local_collectInto _ _ _

theorem local_checkField {field : Field} {types : Scope} {v : Value} :
    Local 0 (checkField field types v) := by
  unfold checkField
  split
  · exact local_pure _
  · refine local_get.bind fun _ => (local_ofExcept _).bind (k := 0) fun _ => ?_
    split
    · exact local_pure _
    · exact local_fail _ _

theorem local_writeField {items : List Value} {field : Field} {types : Scope} {v : Value} :
    Local 1 (writeField items field types v) :=
  local_checkField.bind fun _ => local_pushArray _

theorem local_bindInto (params : List Param) (values : List Value) :
    Local 0 (bindInto params values) := by
  fun_induction bindInto params values with
  | case1 p params v values ih =>
    exact local_get.bind fun _ => (local_ofExcept _).bind fun _ => local_put.bind fun _ => ih
  | case2 => exact local_pure _

theorem local_bindParameters (c : Closure Value) : Local 0 (bindParameters c) := by
  unfold bindParameters
  split
  · exact (local_takeArguments _).bind fun _ => local_bindInto _ _
  · exact local_pure _

/-! ### Actions that add frames -/

theorem pushFrame_eq_ok {frame : Frame} {m m' : Machine} (h : pushFrame frame m = .ok () m') :
    m' = { m with frames := m.frames.push frame } := by
  unfold pushFrame at h
  split at h <;> cases h
  rfl

end Exec

/-- The tests among the frames that are still to be run. -/
def openTests : List Frame → Nat
  | [] => 0
  | .condTest _ :: rest => openTests rest + 1
  | _ :: rest => openTests rest

/-- A bound for what operations can still put on the stack without new code: the operands, and one
more for each test. -/
def Machine.potential (m : Machine) : Nat := m.operands.count + openTests m.frames.toList

namespace Exec

/-- An operation that returns has left the frames alone and raised the stack by one at most, or has
not raised the potential; one that hands over to a value has paid for it. -/
def Tame (x : Exec (Option Value)) : Prop :=
  ∀ m r m', x m = .ok r m' →
    match r with
    | none =>
      (m'.frames = m.frames ∧ m'.operands.count ≤ m.operands.count + 1) ∨
        m'.potential ≤ m.potential
    | some _ => m'.operands.count < m.operands.count ∧ m'.potential < m.potential

theorem tame_plain {x : Exec Unit} {k : Int} (h : Local k x) (le : k ≤ 1) : Tame (plain x) := by
  intro m r m' run
  obtain ⟨_, mid, runX, run⟩ := bind_eq_ok run
  cases run
  have := h _ _ _ runX
  exact .inl ⟨this.1, by omega⟩

theorem Local.tame {x : Exec (Option Value)} (h : Local (-1) x) : Tame x := by
  intro m r m' run
  obtain ⟨frames, count⟩ := h m r m' run
  have count : m'.operands.count < m.operands.count := by omega
  cases r with
  | none => exact .inl ⟨frames, by omega⟩
  | some v => exact ⟨count, by simp only [Machine.potential, frames]; omega⟩

theorem tame_throw (signal : Signal) : Tame (throw signal) := by
  intro m r m' run
  cases run

/-- An operation that takes an operand and adds a frame. -/
theorem tame_pushFrame {α : Type} {x : Exec α} (frame : α → Frame) (h : Local (-1) x) :
    Tame (plain do pushFrame (frame (← x))) := by
  intro m r m' run
  obtain ⟨_, mid, run, last⟩ := bind_eq_ok run
  cases last
  obtain ⟨a, mid', runX, run⟩ := bind_eq_ok run
  obtain ⟨frames, count⟩ := h _ _ _ runX
  refine .inr ?_
  rw [pushFrame_eq_ok run]
  simp only [Machine.potential, Stack.toList_push, frames]
  cases frame a <;> simp only [openTests] <;> omega

theorem tame_cond : Tame (plain cond) := by
  unfold cond
  exact tame_pushFrame (fun found => .condTest found.2) local_popPairs

theorem tame_loop : Tame (plain loop) :=
  tame_pushFrame .loop local_popAs

theorem local_popSource {operator : String} : Local 0 (popSource operator) := by
  unfold popSource
  refine (local_pop.bind (k := 1) fun v => ?_).mono (by decide)
  split
  · exact (local_popAs.bind fun _ => local_pure _).mono (by decide)
  · exact (local_pure _).mono (by decide)
  · exact (local_pure _).mono (by decide)
  · exact local_fail _ _

theorem tame_iterate (withIndex : Bool) : Tame (plain (iterate withIndex)) := by
  intro m r m' run
  obtain ⟨_, mid, run, last⟩ := bind_eq_ok run
  cases last
  obtain ⟨body, mid₁, run₁, run⟩ := bind_eq_ok run
  obtain ⟨source, mid₂, run₂, run⟩ := bind_eq_ok run
  have first := local_popAs _ _ _ run₁
  have second := local_popSource _ _ _ run₂
  refine .inr ?_
  rw [pushFrame_eq_ok run]
  simp only [Machine.potential, Stack.toList_push, openTests, second.1, first.1]
  omega

theorem tame_attempt : Tame attempt := by
  intro m r m' run
  obtain ⟨body, mid₁, run₁, rest₁⟩ := bind_eq_ok run
  obtain ⟨seen, mid₂, run₂, rest₂⟩ := bind_eq_ok rest₁
  obtain ⟨_, mid₃, run₃, rest₃⟩ := bind_eq_ok rest₂
  obtain ⟨rfl, rfl⟩ := get_eq_ok run₂
  obtain ⟨rfl, rfl⟩ := pure_eq_ok rest₃
  have first := local_popAs _ _ _ run₁
  rw [pushFrame_eq_ok run₃]
  simp only [Machine.potential, Stack.toList_push, openTests, first.1]
  omega

theorem tame_beginUpdate (operator : String) (field : Field) (types : Scope) :
    Tame (beginUpdate operator field types) := by
  intro m r m' run
  obtain ⟨callable, mid₁, run₁, rest₁⟩ := bind_eq_ok run
  obtain ⟨found, mid₂, run₂, rest₂⟩ := bind_eq_ok rest₁
  obtain ⟨seen, mid₃, run₃, rest₃⟩ := bind_eq_ok rest₂
  obtain ⟨_, mid₄, run₄, rest₄⟩ := bind_eq_ok rest₃
  obtain ⟨_, mid₅, run₅, rest₅⟩ := bind_eq_ok rest₄
  obtain ⟨_, mid₆, run₆, rest₆⟩ := bind_eq_ok rest₅
  obtain ⟨rfl, rfl⟩ := get_eq_ok run₃
  obtain ⟨rfl, rfl⟩ := pure_eq_ok rest₆
  have first := local_popAs _ _ _ run₁
  have second := local_popAs _ _ _ run₂
  have fifth := local_forbid _ _ _ run₅
  have sixth := local_push _ _ _ _ run₆
  rw [pushFrame_eq_ok run₄] at fifth
  simp only at fifth
  simp only [Machine.potential, sixth.1, fifth.1, Stack.toList_push, openTests, second.1, first.1]
  omega

theorem tame_primitive (p : Primitive) : Tame (primitive p) := by
  cases p with
  | ifElse => exact local_ifElse.tame
  | call => exact (local_popAs.map _).tame
  | attempt => exact tame_attempt
  | cond => exact tame_cond
  | loop => exact tame_loop
  | iterate withIndex => exact tame_iterate withIndex
  | «break» => exact tame_throw _
  | function => exact tame_plain local_function (by decide)
  | lambda => exact tame_plain local_lambda (by decide)
  | condFunction => exact tame_plain local_condFunction (by decide)
  | breakIf => exact tame_plain local_breakIf (by decide)
  | tailCall => exact tame_plain (local_tailCall 0) (by decide)
  | define => exact tame_plain local_defineName (by decide)
  | dataDef => exact tame_plain local_dataDef (by decide)
  | dup => exact tame_plain local_dup (by decide)
  | pop => exact tame_plain local_drop (by decide)
  | swap => exact tame_plain local_swap (by decide)
  | copySecond => exact tame_plain local_copySecond (by decide)
  | rot => exact tame_plain local_rot (by decide)
  | clear => exact tame_plain local_clear (by decide)
  | depth => exact tame_plain local_depth (by decide)
  | arithmetic op => exact tame_plain (local_binary _) (by decide)
  | neg => exact tame_plain (local_unary _) (by decide)
  | equal => exact tame_plain (local_binary _) (by decide)
  | notEqual => exact tame_plain (local_binary _) (by decide)
  | compare c => exact tame_plain (local_binary _) (by decide)
  | not => exact tame_plain (local_popAs.bind fun _ => local_push _) (by decide)
  | and => exact tame_plain (local_logical _ _) (by decide)
  | or => exact tame_plain (local_logical _ _) (by decide)
  | append => exact tame_plain local_append (by decide)
  | length => exact tame_plain (local_unary _) (by decide)
  | nth => exact tame_plain local_nth (by decide)
  | concat => exact tame_plain local_concat (by decide)
  | raise => exact tame_plain (local_raise 0) (by decide)
  | isError => exact tame_plain (local_unary _) (by decide)
  | errorMessage => exact tame_plain (local_unary _) (by decide)
  | sleep => exact tame_plain (local_sleep 0) (by decide)
  | assertion kind => exact tame_plain (local_assertion kind) (by decide)

theorem tame_dataOp (d : DataOp Value) : Tame (dataOp d) := by
  unfold dataOp
  split
  · exact tame_plain ((local_collect _ _).bind fun _ => local_pushArray _) (by decide)
  · exact tame_plain (local_popAs.bind fun _ => local_push _) (by decide)
  · exact tame_plain (local_pop.bind fun _ => local_popAs.bind fun _ => local_writeField)
      (by decide)
  · exact tame_beginUpdate _ _ _
  · exact tame_plain (local_unary _) (by decide)

theorem tame_operation (o : Operation Value) : Tame (operation o) := by
  cases o with
  | data d => exact tame_dataOp d
  | builtin b =>
    obtain ⟨name, action⟩ := b
    cases action with
    | primitive p => exact tame_primitive p
    | await pending => exact tame_throw _
    | reply r =>
      cases r with
      | value v => exact tame_plain (local_push v) (by decide)
      | nothing => exact tame_plain (local_pure ()) (by decide)
      | failure e => exact tame_plain (local_fail 0 e) (by decide)

/-- What a call has done: the parameters are bound in the new scope, and the code of the closure
stands on the frames. -/
theorem bound_of_enter {c : Closure Value} {m m' : Machine} (h : enter c m = .ok () m') :
    ∃ m₁, bindParameters c { m with scopes := m.scopes.enter c.activation } = .ok () m₁ ∧
      m' = { m₁ with
        operands := m₁.operands.forbid
        frames := (m₁.frames.push (.call c m₁.operands.count)).push (.body c.body) } := by
  obtain ⟨seen, mid₀, run₀, rest₀⟩ := bind_eq_ok h
  obtain ⟨rfl, rfl⟩ := get_eq_ok run₀
  split at rest₀
  · cases rest₀
  · obtain ⟨_, mid₁, run₁, rest₁⟩ := bind_eq_ok rest₀
    obtain ⟨_, mid₂, run₂, rest₂⟩ := bind_eq_ok rest₁
    cases run₁
    cases rest₂
    exact ⟨mid₂, tryCatch_eq_ok run₂, rfl⟩

/-- Entering a closure adds no tests and no operands. -/
theorem potential_of_enter {c : Closure Value} {m m' : Machine} (h : enter c m = .ok () m') :
    m'.potential ≤ m.potential := by
  obtain ⟨mid, bound, rfl⟩ := bound_of_enter h
  obtain ⟨frames, count⟩ := local_bindParameters c _ _ _ bound
  simp only at frames count
  simp only [Machine.potential, Stack.toList_push, openTests, frames, Operands.count_forbid]
  omega

end Exec

end Catena
