import Catena.Proofs.Effects

set_option autoImplicit false

/-!
Operations that fail. An operation makes its changes last: as long as it can still fail it takes
operands and looks at them, and nothing else. So when it ends with a signal, frames, scopes and
floors are what they were; when it hands over to a value, there may be one frame more, which guards
what runs above it. When that value cannot be entered, these guards are all that is left.
-/

namespace Catena

namespace Exec

variable {α β : Type}

/-! ### Operations -/

/-- Actions that leave no trace when they end with a signal, except on the operands. -/
def Spares (x : Exec α) : Prop := ∀ m signal m', x m = .error signal m' → m.Collects m'

theorem Inert.spares {x : Exec α} (inert : Inert x) : Spares x := by
  intro m signal m' failed
  have collects := inert m
  rwa [failed] at collects

theorem Quiet.spares {x : Exec α} (quiet : Quiet x) : Spares x := quiet.inert.spares

/-- What comes last may change anything, as long as it does so only when it succeeds. -/
theorem Quiet.then {x : Exec α} {f : α → Exec β} (first : Quiet x) (last : ∀ a, Spares (f a)) :
    Spares (x >>= f) := by
  intro m signal m' failed
  rcases bind_eq_error failed with before | ⟨a, m₁, ran, after⟩
  · exact first.spares m signal m' before
  · have kept := first m
    rw [ran] at kept
    exact kept.toCollects.trans (last a m₁ signal m' after)

/-- Nothing fails after the last change. -/
theorem Spares.then {x : Exec α} {f : α → Exec β} (spares : Spares x)
    (sure : ∀ a m, ∃ b m', f a m = .ok b m') : Spares (x >>= f) := by
  intro m signal m' failed
  simp only [Bind.bind, EStateM.bind] at failed
  cases ran : x m with
  | error signal m₁ =>
    rw [ran] at failed
    cases failed
    exact spares m _ _ ran
  | ok a m₁ =>
    obtain ⟨b, m₂, ran'⟩ := sure a m₁
    rw [ran] at failed
    cases ran'.symm.trans failed

theorem spares_change (f : Machine → Except RuntimeError Machine) : Spares (change f) := by
  intro m signal m' failed
  simp only [change] at failed
  cases changed : f m with
  | ok m₁ =>
    rw [changed] at failed
    cases failed
  | error e =>
    rw [changed] at failed
    cases failed
    exact ⟨rfl, rfl, rfl, rfl⟩

theorem pushFrame_eq_error {f : Frame} {m m' : Machine} {signal : Signal}
    (failed : pushFrame f m = .error signal m') : signal = .error .depthExceeded ∧ m' = m := by
  simp only [pushFrame] at failed
  split at failed <;> cases failed
  exact ⟨rfl, rfl⟩

theorem spares_pushFrame (f : Frame) : Spares (pushFrame f) := by
  intro m signal m' failed
  obtain ⟨_, rfl⟩ := pushFrame_eq_error failed
  exact ⟨rfl, rfl, rfl, rfl⟩

theorem spares_plain {x : Exec Unit} (spares : Spares x) : Spares (plain x) :=
  spares.then fun _ m => ⟨none, m, rfl⟩

theorem spares_lasting {p : Primitive} (lasting : p.isLasting = true) : Spares (primitive p) := by
  cases p with
  | attempt =>
    exact quiet_popAs.then fun _ => quiet_get.then fun _ =>
      (spares_pushFrame _).then fun _ m => ⟨_, m, rfl⟩
  | cond => exact spares_plain ((quiet_popPairs _).then fun _ => spares_pushFrame _)
  | function =>
    exact spares_plain (quiet_popAs.then fun _ => quiet_popSignature?.then fun _ =>
      quiet_popAs.then fun _ => quiet_close.then fun _ => spares_change _)
  | condFunction =>
    exact spares_plain ((quiet_popPairs _).then fun _ => quiet_popSignature?.then fun _ =>
      quiet_popAs.then fun _ => quiet_get.then fun _ => quiet_close.then fun _ => spares_change _)
  | loop => exact spares_plain (quiet_popAs.then fun _ => spares_pushFrame _)
  | iterate withIndex =>
    exact spares_plain (quiet_popAs.then fun _ => (quiet_popSource _).then fun _ =>
      spares_pushFrame _)
  | define =>
    exact spares_plain (quiet_popAs.then fun _ => quiet_pop.then fun _ => spares_change _)
  | dataDef =>
    exact spares_plain (quiet_pop.then fun _ => quiet_popAs.then fun _ =>
      (quiet_ofExcept _).then fun _ => spares_change _)
  | _ => cases lasting

theorem spares_beginUpdate {operator : String} {field : Field} {types : Scope} :
    Spares (beginUpdate operator field types) :=
  quiet_popAs.then fun _ => quiet_popAs.then fun _ => quiet_get.then fun _ =>
    (spares_pushFrame _).then fun _ _ => ⟨_, _, rfl⟩

theorem spares_operation (o : Operation Value) : Spares (operation o) := by
  rcases quiet_operation o with quiet | ⟨p, lasting, same⟩ | ⟨name, field, types, same⟩
  · exact quiet.spares
  · exact same ▸ spares_lasting lasting
  · exact same ▸ spares_beginUpdate

end Exec

/-! ### Handing over -/

/-- The frames that an operation may put up before it hands over to a value. -/
def Frame.isGuard : Frame → Bool
  | .attempt _ | .update .. => true
  | _ => false

/-- Nothing has been added to the frames but guards, and the scopes are the same. -/
structure Machine.Guarded (m m' : Machine) : Prop where
  frames : ∃ guards, (∀ f ∈ guards, f.isGuard = true) ∧
    m'.frames.toList = guards ++ m.frames.toList
  scopes : m'.scopes = m.scopes

namespace Machine.Guarded

variable {m m₁ m₂ : Machine}

theorem same (frames : m₁.frames = m.frames) (scopes : m₁.scopes = m.scopes) : m.Guarded m₁ :=
  ⟨⟨[], List.forall_mem_nil _, congrArg Stack.toList frames⟩, scopes⟩

theorem trans (first : m.Guarded m₁) (second : m₁.Guarded m₂) : m.Guarded m₂ := by
  obtain ⟨⟨guards, all, frames⟩, scopes⟩ := first
  obtain ⟨⟨guards', all', frames'⟩, scopes'⟩ := second
  refine ⟨⟨guards' ++ guards, List.forall_mem_append.2 ⟨all', all⟩, ?_⟩, scopes'.trans scopes⟩
  rw [frames', frames, List.append_assoc]

end Machine.Guarded

theorem Machine.Collects.guarded {m m' : Machine} (collects : m.Collects m') : m.Guarded m' :=
  .same collects.frames collects.scopes

namespace Exec

variable {α β : Type}

/-- Actions that put up a guard at most when they hand over to a value. -/
def HandsOver (x : Exec (Option Value)) : Prop :=
  ∀ m next m', x m = .ok (some next) m' → m.Guarded m'

theorem handsOver_plain (x : Exec Unit) : HandsOver (plain x) := by
  intro m next m' ran
  simp only [plain, Bind.bind, EStateM.bind] at ran
  cases ended : x m with
  | ok a m₁ =>
    rw [ended] at ran
    cases ran
  | error signal m₁ =>
    rw [ended] at ran
    cases ran

theorem Quiet.handsOver {x : Exec (Option Value)} (quiet : Quiet x) : HandsOver x := by
  intro m next m' ran
  have kept := quiet m
  rw [ran] at kept
  exact kept.toCollects.guarded

theorem Quiet.thenHandsOver {x : Exec α} {f : α → Exec (Option Value)} (first : Quiet x)
    (last : ∀ a, HandsOver (f a)) : HandsOver (x >>= f) := by
  intro m next m' ran
  obtain ⟨a, m₁, ended, rest⟩ := bind_eq_ok ran
  have kept := first m
  rw [ended] at kept
  exact kept.toCollects.guarded.trans (last a m₁ next m' rest)

theorem handsOver_pushFrame {f : Frame} (guard : f.isGuard = true) {x : Exec (Option Value)}
    (kept : ∀ m, (left (x m)).frames = m.frames ∧ (left (x m)).scopes = m.scopes) :
    HandsOver (do pushFrame f; x) := by
  intro m next m' ran
  obtain ⟨_, m₁, pushed, rest⟩ := bind_eq_ok ran
  have added : m₁ = { m with frames := m.frames.push f } := by
    simp only [pushFrame] at pushed
    split at pushed <;> cases pushed
    rfl
  obtain ⟨frames, scopes⟩ := kept m₁
  rw [rest] at frames scopes
  subst added
  exact ⟨⟨[f], List.forall_mem_singleton.2 guard, congrArg Stack.toList frames⟩, scopes⟩

theorem handsOver_operation (o : Operation Value) : HandsOver (operation o) := by
  rcases quiet_operation o with quiet | ⟨p, lasting, same⟩ | ⟨name, field, types, same⟩
  · exact quiet.handsOver
  · rw [same]
    cases p with
    | attempt =>
      exact quiet_popAs.thenHandsOver fun _ => quiet_get.thenHandsOver fun _ =>
        handsOver_pushFrame rfl fun _ => ⟨rfl, rfl⟩
    | ifElse | call | «break» => cases lasting
    | _ => exact handsOver_plain _
  · rw [same]
    exact quiet_popAs.thenHandsOver fun _ => quiet_popAs.thenHandsOver fun _ =>
      quiet_get.thenHandsOver fun _ => handsOver_pushFrame rfl fun _ => ⟨rfl, rfl⟩

/-! ### Values that cannot be entered -/

/-- Actions that leave nothing but guards when they end with a signal. -/
def Withdraws (x : Exec α) : Prop := ∀ m signal m', x m = .error signal m' → m.Guarded m'

theorem Spares.withdraws {x : Exec α} (spares : Spares x) : Withdraws x :=
  fun m signal m' failed => (spares m signal m' failed).guarded

theorem Quiet.thenWithdraws {x : Exec α} {f : α → Exec β} (first : Quiet x)
    (last : ∀ a, Withdraws (f a)) : Withdraws (x >>= f) := by
  intro m signal m' failed
  rcases bind_eq_error failed with before | ⟨a, m₁, ran, after⟩
  · exact first.spares.withdraws m signal m' before
  · have kept := first m
    rw [ran] at kept
    exact kept.toCollects.guarded.trans (last a m₁ signal m' after)

/-- A closure that is not entered leaves the frames and the scopes alone, and there is an error. If
it is for want of frames, no argument has been taken either. -/
theorem enter_eq_error {c : Closure Value} {m m' : Machine} {signal : Signal}
    (failed : enter c m = .error signal m') :
    m'.frames = m.frames ∧ m'.scopes = m.scopes ∧ (signal = .error .depthExceeded → m' = m) ∧
      ∃ e, signal = .error e := by
  rcases enter_cases c m with ⟨_, refused⟩ | ⟨_, ⟨_, _, entered⟩ | ⟨_, m₁, unbound, left⟩⟩
  · cases refused.symm.trans failed
    exact ⟨rfl, rfl, fun _ => rfl, _, rfl⟩
  · cases entered.symm.trans failed
  · cases left.symm.trans failed
    have steady := steady_bindParameters c { m with scopes := m.scopes.enter c.activation }
    rw [unbound] at steady
    obtain ⟨⟨frames, saved⟩, e, rfl, other⟩ := steady
    refine ⟨frames, ?_, fun same => ?_, e, rfl⟩
    · change m₁.scopes.leave = m.scopes
      rw [Scopes.leave, saved]
      rfl
    · cases same
      exact absurd rfl other

theorem withdraws_enter (c : Closure Value) : Withdraws (enter c) := by
  intro m signal m' failed
  obtain ⟨frames, scopes, _⟩ := enter_eq_error failed
  exact .same frames scopes

/-- The induction is on the operands, as for what is launched. -/
theorem withdraws_invoke (v : Value) : Withdraws (invoke v) := by
  intro m
  induction size : m.operands.count using Nat.strongRecOn generalizing v m with
  | _ size ih =>
    intro signal m' failed
    cases v with
    | quote id code =>
      rw [invoke] at failed
      exact (spares_pushFrame _).withdraws m signal m' failed
    | closure c =>
      rw [invoke] at failed
      exact withdraws_enter c m signal m' failed
    | op o origin =>
      rw [Parallel.invoke_op] at failed
      simp only [Bind.bind, EStateM.bind] at failed
      cases ran : operation o m with
      | error signal₁ m₁ =>
        rw [ran] at failed
        cases failed
        exact (spares_operation o).withdraws m _ _ ran
      | ok handed m₁ =>
        rw [ran] at failed
        cases handed with
        | none => cases failed
        | some next =>
          have taken := (tame_operation o _ _ _ ran).1
          have guarded := handsOver_operation o m next m₁ ran
          exact guarded.trans (ih _ (by omega) next m₁ rfl signal m' failed)
    | array id items =>
      simp only [invoke] at failed
      exact (quiet_fail _).spares.withdraws m signal m' failed
    | _ =>
      rw [Parallel.invoke_of_isPlain rfl] at failed
      exact (quiet_fail _).spares.withdraws m signal m' failed

theorem withdraws_resolve (name : String) : Withdraws (resolve name) := by
  refine quiet_get.thenWithdraws fun m => ?_
  split
  · exact withdraws_invoke _
  · split
    · exact withdraws_enter _
    · exact withdraws_invoke _
    · exact (quiet_push _).spares.withdraws
    · exact (quiet_fail _).spares.withdraws

theorem withdraws_value (v : Value) : Withdraws (value v) := by
  unfold value
  split
  · exact (inert_closeContainer _).spares.withdraws
  · exact (quiet_setOrigin _).thenWithdraws fun _ => withdraws_resolve _
  · exact (quiet_setOrigin _).thenWithdraws fun _ => withdraws_invoke _
  · exact (quiet_push _).spares.withdraws

theorem withdraws_token (t : Token) : Withdraws (token t) := by
  refine (quiet_setOrigin _).thenWithdraws fun _ => ?_
  obtain ⟨lexeme, place⟩ := t
  cases lexeme with
  | name text =>
    refine quiet_get.thenWithdraws fun m => ?_
    split
    · exact (quiet_push _).spares.withdraws
    · exact withdraws_resolve text
  | opening bracket =>
    exact ((inert_countOpen _ _).bind fun _ => (quiet_push _).inert).spares.withdraws
  | closing bracket =>
    refine quiet_get.thenWithdraws fun m => ?_
    split
    · exact (quiet_push _).spares.withdraws
    · exact (inert_closeContainer bracket).spares.withdraws
  | _ => exact (quiet_push _).spares.withdraws

end Exec

end Catena
