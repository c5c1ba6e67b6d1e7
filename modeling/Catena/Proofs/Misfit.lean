import Catena.Proofs.Shadowing

set_option autoImplicit false

/-!
Closures whose parameters do not bind. A call that fails has touched nothing but the operands, and
these only if there were enough of them. A closure that fails to take the place of another one
leaves the frame it was meant for on top, with one scope and its floor, so that whoever deals with
the error can release it like any other.
-/

namespace Catena

/-! ### The argument that does not fit -/

/-- The scope when the arguments before position `i` have been bound. -/
def Scope.boundTo (scope : Scope) (params : List Param) (args : List Value) (i : Nat) : Scope :=
  scope.insertAll (((params.map Param.name).zip args).take i)

/-- The value is not accepted by the parameter: it does not have the declared type, or nobody knows
that type. -/
inductive Param.Rejects (p : Param) (scope : Scope) (v : Value) : RuntimeError → Prop
  | mismatch {type : String} (declared : p.type = some type)
      (other : checkType scope scope type v = .ok false) :
      Rejects p scope v (.parameterMismatch p.name type v)
  | unknown {type : String} (declared : p.type = some type)
      (missing : checkType scope scope type v = .error (.unknownType type)) :
      Rejects p scope v (.unknownType type)

/-- The arguments before position `i` fit, and the one there is rejected. -/
structure RejectedAt (scope : Scope) (params : List Param) (args : List Value) (i : Nat)
    (e : RuntimeError) : Prop where
  before : FitInto scope (params.take i) (args.take i)
  here : ∃ p v, params[i]? = some p ∧ args[i]? = some v ∧
    p.Rejects (scope.boundTo params args i) v e

theorem Param.rejects_iff {p : Param} {scope : Scope} {v : Value} {e : RuntimeError} :
    p.Rejects scope v e ↔ p.check scope scope v = .error e := by
  constructor
  · rintro (⟨declared, other⟩ | ⟨declared, missing⟩)
    · exact check_of_checkType declared other
    · rw [Param.check, declared]
      simp only [missing]
  · intro refused
    unfold Param.check at refused
    split at refused
    · cases refused
    · next type declared =>
      split at refused <;> cases refused
      · next other => exact .mismatch declared other
      · next missing =>
        obtain rfl := checkType_eq_error missing
        exact .unknown declared missing

section

variable {scope : Scope} {p : Param} {v : Value} {params : List Param} {args : List Value}
  {i : Nat} {e : RuntimeError}

theorem rejectedAt_zero :
    RejectedAt scope (p :: params) (v :: args) 0 e ↔ p.check scope scope v = .error e := by
  rw [← Param.rejects_iff]
  constructor
  · rintro ⟨_, _, _, ⟨⟩, ⟨⟩, rejects⟩
    exact rejects
  · intro rejects
    exact ⟨trivial, p, v, rfl, rfl, rejects⟩

theorem rejectedAt_succ :
    RejectedAt scope (p :: params) (v :: args) (i + 1) e ↔
      p.check scope scope v = .ok () ∧ RejectedAt (scope.insert p.name v) params args i e := by
  constructor
  · rintro ⟨⟨accepted, before⟩, here⟩
    exact ⟨accepted, before, here⟩
  · rintro ⟨accepted, before, here⟩
    exact ⟨⟨accepted, before⟩, here⟩

namespace Exec

/-- Binding fails at the first argument that is rejected, with those before it bound. -/
theorem bindInto_eq_error_iff {m m' : Machine} {signal : Signal} :
    bindInto params args m = .error signal m' ↔
      ∃ i e, RejectedAt m.scopes.active params args i e ∧ signal = .error e ∧
        m' = { m with scopes := ⟨m.scopes.active.boundTo params args i, m.scopes.saved⟩ } := by
  induction params generalizing args m with
  | nil =>
    refine iff_of_false (by rintro ⟨⟩) ?_
    rintro ⟨_, _, ⟨_, _, _, ⟨⟩, _⟩, _⟩
  | cons p params ih =>
    cases args with
    | nil =>
      refine iff_of_false (by rintro ⟨⟩) ?_
      rintro ⟨_, _, ⟨_, _, _, _, ⟨⟩, _⟩, _⟩
    | cons v args =>
      cases checked : p.check m.scopes.active m.scopes.active v with
      | error e =>
        rw [bindInto_of_refused checked]
        constructor
        · intro failed
          cases failed
          exact ⟨0, e, rejectedAt_zero.2 checked, rfl, rfl⟩
        · rintro ⟨i, e', rejected, rfl, rfl⟩
          cases i with
          | zero =>
            cases checked.symm.trans (rejectedAt_zero.1 rejected)
            rfl
          | succ i => cases checked.symm.trans (rejectedAt_succ.1 rejected).1
      | ok _ =>
        rw [bindInto_of_accepted checked, ih]
        constructor
        · rintro ⟨i, e, rejected, same, machine⟩
          exact ⟨i + 1, e, rejectedAt_succ.2 ⟨checked, rejected⟩, same, machine⟩
        · rintro ⟨i, e, rejected, same, machine⟩
          cases i with
          | zero => cases checked.symm.trans (rejectedAt_zero.1 rejected)
          | succ i => exact ⟨i, e, (rejectedAt_succ.1 rejected).2, same, machine⟩

end Exec

end

/-! ### Parameters that do not bind -/

/-- Why the parameters of a closure do not bind to the operands, with the number of operands that
are taken all the same and the number of parameters that are bound before the error. -/
inductive Operands.Fails (s : Operands) (c : Closure Value) :
    RuntimeError → (taken bound : Nat) → Prop
  | few (short : s.accessible < c.arity) : Fails s c (.tooFewArguments c.arity s.accessible) 0 0
  | misfit {i : Nat} {e : RuntimeError} (enough : c.arity ≤ s.accessible)
      (rejected : RejectedAt c.activation c.params (s.topmost c.arity) i e) :
      Fails s c e c.arity i

namespace Exec

variable {c : Closure Value} {m m' : Machine} {signal : Signal}

theorem bindParameters_eq_error_iff (active : m.scopes.active = c.activation) :
    bindParameters c m = .error signal m' ↔
      ∃ e taken bound, m.operands.Fails c e taken bound ∧ signal = .error e ∧
        m' = { m with
          operands := m.operands.spend taken
          scopes := ⟨c.activation.boundTo c.params (m.operands.topmost c.arity) bound,
            m.scopes.saved⟩ } := by
  rw [bindParameters_eq]
  simp only [Bind.bind, EStateM.bind]
  by_cases few : m.operands.accessible < c.arity
  · have unbound : m = { m with scopes := ⟨c.activation, m.scopes.saved⟩ } := by rw [← active]
    have failed : takeArguments c.arity m = .error _ m :=
      (takeArguments_cases c.arity m).elim And.right fun ⟨_, _, _, spends, _⟩ =>
        absurd spends.accessible (Nat.not_le.2 few)
    rw [failed]
    constructor
    · intro same
      cases same
      exact ⟨_, 0, 0, .few few, rfl, unbound⟩
    · rintro ⟨e, taken, bound, fails, rfl, rfl⟩
      cases fails with
      | few => exact congrArg _ unbound
      | misfit enough => omega
  · rw [takeArguments_of_accessible (Nat.not_lt.1 few)]
    simp only [bindInto_eq_error_iff, active]
    constructor
    · rintro ⟨i, e, rejected, same, machine⟩
      exact ⟨e, c.arity, i, .misfit (Nat.not_lt.1 few) rejected, same, machine⟩
    · rintro ⟨e, taken, bound, fails, same, machine⟩
      cases fails with
      | few short => exact absurd short few
      | misfit _ rejected => exact ⟨bound, e, rejected, same, machine⟩

/-- A call fails for want of frames, or because the parameters do not bind; in that case the scope
of the closure has been left again. -/
theorem enter_eq_error_iff :
    enter c m = .error signal m' ↔
      (m.maxFrames < m.frames.size + 2 ∧ signal = .error .depthExceeded ∧ m' = m) ∨
      (m.frames.size + 2 ≤ m.maxFrames ∧ ∃ e taken bound, m.operands.Fails c e taken bound ∧
        signal = .error e ∧ m' = { m with operands := m.operands.spend taken }) := by
  rcases enter_cases c m with ⟨full, refused⟩ | ⟨room, ⟨_, bound, ran⟩ | ⟨_, _, unbound, ran⟩⟩
  · rw [refused]
    constructor
    · intro failed
      cases failed
      exact .inl ⟨full, rfl, rfl⟩
    · rintro (⟨_, rfl, rfl⟩ | ⟨room, _⟩)
      · rfl
      · omega
  · rw [ran]
    refine iff_of_false (by rintro ⟨⟩) ?_
    rintro (⟨full, _⟩ | ⟨_, e, taken, bound', fails, rfl, rfl⟩)
    · omega
    · cases bound.symm.trans
        ((bindParameters_eq_error_iff rfl).2 ⟨e, taken, bound', fails, rfl, rfl⟩)
  · rw [ran]
    constructor
    · intro failed
      cases failed
      obtain ⟨e, taken, bound, fails, rfl, rfl⟩ := (bindParameters_eq_error_iff rfl).1 unbound
      exact .inr ⟨room, e, taken, bound, fails, rfl, rfl⟩
    · rintro (⟨full, _⟩ | ⟨_, e, taken, bound, fails, rfl, rfl⟩)
      · omega
      · cases unbound.symm.trans
          ((bindParameters_eq_error_iff rfl).2 ⟨e, taken, bound, fails, rfl, rfl⟩)
        rfl

/-! ### In the place of a closure further down -/

/-- Puts a closure in the place of the one whose frame has `position` frames below it. -/
def replaceAt (position : Nat) (target : Closure Value) : Exec Unit := do
  let m ← get
  let kept := m.frames.keep (position + 1)
  set { m.releaseAll (m.frames.above (position + 1)).reverse with frames := kept }
  leaveScope
  enterScope target.activation
  bindParameters target
  match kept.pop? with
  | some (.call _ floor, below) =>
    setFrames ((below.push (.call target floor)).push (.body target.body))
  | _ => setFrames (kept.push (.body target.body))

end Exec

section

variable {m m' : Machine} {c d : Closure Value} {floor : Nat} {above below : List Frame}

section

variable (frames : m.frames.toList = above ++ .call d floor :: below)
include frames

theorem Exec.replaceAt_eq (target : Closure Value) :
    Exec.replaceAt below.length target m =
      (do
        bindParameters target
        setFrames (.ofList (.body target.body :: .call target floor :: below)))
      { m.releaseAll above with
        frames := .ofList (.call d floor :: below)
        scopes := (m.releaseAll above).scopes.leave.enter target.activation } := by
  have size : m.frames.size - (below.length + 1) = above.length := by
    rw [← m.frames.length_eq, frames, List.length_append, List.length_cons]
    omega
  have gone : (m.frames.above (below.length + 1)).reverse = above := by
    rw [Stack.above, List.reverse_reverse, size, frames, List.take_left]
  have kept : m.frames.keep (below.length + 1) = .ofList (.call d floor :: below) := by
    refine Stack.ext ?_
    rw [Stack.keep, Stack.toList_drop, size, frames, List.drop_left, Stack.toList_ofList]
  simp only [Exec.replaceAt, Bind.bind, EStateM.bind, get_apply, gone, kept]
  rfl

/-- A tail call puts the closure in the place of the nearest one. -/
theorem Exec.replaceCall_eq_replaceAt (innermost : ∀ f ∈ above, f.isCall = false)
    (target : Closure Value) :
    Exec.replaceCall target m = Exec.replaceAt below.length target m := by
  obtain ⟨lower, split, under⟩ := Stack.split?_of_append frames
    (fun f member => Frame.callFloor?_of_isCall (innermost f member)) (by rfl)
  obtain rfl : lower = .ofList below := Stack.ext under
  have kept : m.frames.drop above.length = .ofList (.call d floor :: below) := by
    refine Stack.ext ?_
    rw [Stack.toList_drop, frames, List.drop_left, Stack.toList_ofList]
  rw [replaceCall_eq split, replaceAt_eq frames, kept]
  rfl

/-- It fails when the parameters do not bind. The frames above have been given up by then, and the
new scope is in place. -/
theorem Exec.replaceAt_eq_error_iff {signal : Signal} :
    Exec.replaceAt below.length c m = .error signal m' ↔
      ∃ e taken bound, (m.releaseAll above).operands.Fails c e taken bound ∧ signal = .error e ∧
        m' = { m.releaseAll above with
          frames := .ofList (.call d floor :: below)
          operands := (m.releaseAll above).operands.spend taken
          scopes := ⟨c.activation.boundTo c.params
              ((m.releaseAll above).operands.topmost c.arity) bound,
            ((m.releaseAll above).scopes.leave.enter c.activation).saved⟩ } := by
  let entered : Machine := { m.releaseAll above with
    frames := .ofList (.call d floor :: below)
    scopes := (m.releaseAll above).scopes.leave.enter c.activation }
  have unbound : Exec.replaceAt below.length c m = .error signal m' ↔
      bindParameters c entered = .error signal m' := by
    rw [replaceAt_eq frames]
    simp only [Bind.bind, EStateM.bind]
    cases bindParameters c entered with
    | ok _ m₁ => exact iff_of_false (by rintro ⟨⟩) (by rintro ⟨⟩)
    | error signal₁ m₁ => exact Iff.rfl
  rw [unbound]
  exact bindParameters_eq_error_iff (m := entered) rfl

end

/-- The scopes saved for the callers of the closure that was to be replaced are still there. -/
theorem Scopes.saved_enter_leaveMany {s : Scopes} {calls : Nat} (callers : calls < s.depth)
    (scope : Scope) : ((s.leaveMany calls).leave.enter scope).saved = s.saved.drop calls := by
  have saved := saved_leaveMany (Nat.le_of_lt callers)
  have nonempty : (s.leaveMany calls).saved ≠ [] := by
    rw [saved, ← List.length_pos_iff, List.length_drop]
    exact Nat.sub_pos_of_lt callers
  rw [enter_leave nonempty, saved]

end

/-- A closure that is not entered leaves no trace. A call fails for want of frames or of operands,
and then nothing has happened, or because of the first argument that its parameter rejects, and then
just the arguments are gone. A closure that fails to take the place of another leaves the frame of
that one on top of those below it; scopes and floors are still one for each frame that has them, and
those of the callers are what they were. -/
theorem failed_entry_leaves_no_trace (c : Closure Value) (m : Machine) :
    (∀ signal m', Exec.enter c m = .error signal m' ↔
      (m.maxFrames < m.frames.size + 2 ∧ signal = .error .depthExceeded ∧ m' = m) ∨
      (m.frames.size + 2 ≤ m.maxFrames ∧ m.operands.accessible < c.arity ∧
        signal = .error (.tooFewArguments c.arity m.operands.accessible) ∧ m' = m) ∨
      (m.frames.size + 2 ≤ m.maxFrames ∧ c.arity ≤ m.operands.accessible ∧
        m' = { m with operands := m.operands.spend c.arity } ∧ ∃ i e, signal = .error e ∧
          RejectedAt c.activation c.params (m.operands.topmost c.arity) i e)) ∧
    (∀ signal m', Exec.enter c m = .error signal m' →
      m'.scopes = m.scopes ∧ m'.operands.floors = m.operands.floors ∧ m'.frames = m.frames) ∧
    ∀ d floor above below, m.frames.toList = above ++ .call d floor :: below →
      ((∀ f ∈ above, f.isCall = false) →
        Exec.replaceCall c m = Exec.replaceAt below.length c m) ∧
      ∀ signal m', Exec.replaceAt below.length c m = .error signal m' →
        m'.frames.toList = .call d floor :: below ∧
        (m.scopes.depth = callsIn m.frames.toList →
          m'.scopes.depth = callsIn m'.frames.toList ∧
          m'.scopes.saved = m.scopes.saved.drop (callsIn above)) ∧
        (m.operands.floors = floorsOf m.frames.toList →
          m'.operands.floors = floorsOf m'.frames.toList) := by
  refine ⟨fun signal m' => ?_, fun signal m' failed => ?_, fun d floor above below frames =>
    ⟨fun innermost => Exec.replaceCall_eq_replaceAt frames innermost c, fun signal m' failed => ?_⟩⟩
  · rw [Exec.enter_eq_error_iff]
    refine or_congr_right ⟨?_, ?_⟩
    · rintro ⟨room, e, taken, bound, ⟨short⟩ | ⟨enough, rejected⟩, rfl, rfl⟩
      · exact .inl ⟨room, short, rfl, rfl⟩
      · exact .inr ⟨room, enough, rfl, _, _, rfl, rejected⟩
    · rintro (⟨room, short, rfl, rfl⟩ | ⟨room, enough, rfl, i, e, rfl, rejected⟩)
      · exact ⟨room, _, 0, 0, .few short, rfl, rfl⟩
      · exact ⟨room, e, c.arity, i, .misfit enough rejected, rfl, rfl⟩
  · rcases Exec.enter_eq_error_iff.1 failed with ⟨_, _, rfl⟩ | ⟨_, _, _, _, _, _, rfl⟩
    · exact ⟨rfl, rfl, rfl⟩
    · exact ⟨rfl, rfl, rfl⟩
  · obtain ⟨e, taken, bound, _, _, rfl⟩ := (Exec.replaceAt_eq_error_iff frames).1 failed
    rw [Machine.releaseAll_eq, frames, callsIn_append, callsIn_cons, floorsOf_append]
    refine ⟨rfl, fun depth => ?_, fun floors => ?_⟩
    · have callers : callsIn above < m.scopes.depth := by
        rw [depth]
        simp only [Frame.isCall, if_true]
        omega
      have saved := Scopes.saved_enter_leaveMany callers c.activation
      refine ⟨?_, saved⟩
      rw [Scopes.depth] at depth ⊢
      simp only [saved, List.length_drop, depth, Stack.toList_ofList, callsIn_cons]
      omega
    · simp only [floors, Operands.spend, foldl_erase_append, Stack.toList_ofList]

/-- The closure `(x :Int, y :Int, z)`. -/
def Closure.measuring : Closure Value :=
  ⟨1, some "f", [], some ⟨[⟨"x", some "Int"⟩, ⟨"y", some "Int"⟩, ⟨"z", none⟩], none⟩, .empty⟩

/-- A machine inside two closures, with `nil` in the place of the second argument. -/
def Machine.mismeasured : Machine :=
  { Machine.new .standard with
    operands := ⟨.ofList [.str "z", .nil, .int 1, .int 0], [1, 1]⟩
    scopes := ⟨.empty, [⟨[("inner", .nil)]⟩, ⟨[("outer", .nil)]⟩]⟩
    frames := .ofList [.loop [], .call .measuring 1, .body [], .call .measuring 1, .program []] }

theorem failed_entry_leaves_no_trace_midway :
    let m := Machine.mismeasured
    let e := RuntimeError.parameterMismatch "y" "Int" .nil
    ∃ m', Exec.enter .measuring m = .error (.error e) { m with operands := m.operands.spend 3 } ∧
      Exec.replaceAt 1 .measuring m = .error (.error e) m' ∧
      m'.frames.toList = [.call .measuring 1, .program []] ∧ m'.scopes.depth = 1 ∧
      m'.scopes.saved = m.scopes.saved.drop 1 ∧ m'.operands.floors = [1] := by
  intro m e
  have rejected : RejectedAt Closure.measuring.activation Closure.measuring.params
      (m.operands.topmost 3) 1 e :=
    ⟨⟨rfl, trivial⟩, _, _, rfl, rfl, .mismatch rfl rfl⟩
  obtain ⟨entry, _, replacing⟩ := failed_entry_leaves_no_trace .measuring m
  have failed := (entry (.error e) _).2
    (.inr (.inr ⟨by decide, by decide, rfl, 1, e, rfl, rejected⟩))
  obtain ⟨_, placed⟩ :=
    replacing .measuring 1 [.loop [], .call .measuring 1, .body []] [.program []] rfl
  obtain ⟨frames, scopes, floors⟩ := placed (.error e) _ rfl
  obtain ⟨depth, saved⟩ := scopes rfl
  exact ⟨_, failed, rfl, frames, depth, saved, floors rfl⟩

end Catena
