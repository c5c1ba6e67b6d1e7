import Catena.Proofs.Taking

set_option autoImplicit false

/-!
Actions that leave the frames and the saved scopes alone however they end. Binding parameters and
writing a field are of this kind; when they fail, it is never for want of frames.
-/

namespace Catena

/-- The machines have the same frames and saved scopes. -/
def Machine.Level (m m' : Machine) : Prop :=
  m'.frames = m.frames ∧ m'.scopes.saved = m.scopes.saved

def Exec.Steady {α : Type} (x : Exec α) : Prop :=
  ∀ m, match x m with
    | .ok _ m' => m.Level m'
    | .error signal m' => m.Level m' ∧ ∃ e, signal = .error e ∧ e ≠ .depthExceeded

namespace Exec

variable {α β : Type}

theorem Steady.bind {x : Exec α} {f : α → Exec β} (first : Steady x) (next : ∀ a, Steady (f a)) :
    Steady (x >>= f) := by
  intro m
  have kept := first m
  simp only [Bind.bind, EStateM.bind]
  cases ran : x m with
  | error signal m' =>
    rw [ran] at kept
    exact kept
  | ok a m' =>
    rw [ran] at kept
    have rest := next a m'
    simp only
    cases ran' : f a m' with
    | ok b m'' =>
      rw [ran'] at rest
      exact ⟨rest.1.trans kept.1, rest.2.trans kept.2⟩
    | error signal m'' =>
      rw [ran'] at rest
      exact ⟨⟨rest.1.1.trans kept.1, rest.1.2.trans kept.2⟩, rest.2⟩

theorem steady_pure (a : α) : Steady (pure a : Exec α) := fun _ => ⟨rfl, rfl⟩

theorem steady_get : Steady (get : Exec Machine) := fun _ => ⟨rfl, rfl⟩

theorem steady_fail {e : RuntimeError} (other : e ≠ .depthExceeded) :
    Steady (fail e : Exec α) :=
  fun _ => ⟨⟨rfl, rfl⟩, e, rfl, other⟩

theorem steady_ofExcept {x : Except RuntimeError α} (other : x ≠ .error .depthExceeded) :
    Steady (ofExcept x) := by
  cases x with
  | ok a => exact steady_pure a
  | error e => exact steady_fail fun h => other (by rw [h])

theorem steady_modify {f : Machine → Machine} (level : ∀ m : Machine, m.Level (f m)) :
    Steady (modify f : Exec Unit) :=
  level

theorem steady_pop : Steady pop := by
  intro m
  simp only [pop]
  cases popped : m.operands.pop with
  | ok r => exact ⟨rfl, rfl⟩
  | error e =>
    refine ⟨⟨rfl, rfl⟩, e, rfl, ?_⟩
    have missing : e = m.operands.missing := by
      simp only [Operands.pop] at popped
      split at popped
      · cases popped
        rfl
      · split at popped <;> cases popped
        rfl
    rw [missing, Operands.missing]
    split <;> simp [RuntimeError.depthExceeded]

theorem steady_bindParameters (c : Closure Value) : Steady (bindParameters c) := by
  intro m
  have absorbed := absorbed_bindParameters c m
  generalize bindParameters c m = x at absorbed ⊢
  cases x with
  | ok _ m' =>
    obtain ⟨_, _, ⟨_, rfl⟩, rfl⟩ := absorbed
    exact ⟨rfl, rfl⟩
  | error signal m' =>
    obtain ⟨⟨_, _, _, ⟨_, rfl⟩, rfl⟩, error⟩ := absorbed
    exact ⟨⟨rfl, rfl⟩, error⟩

theorem steady_writeField (items : List Value) (field : Field) (types : Scope) (v : Value) :
    Steady (writeField items field types v) := by
  have check : Steady (checkField field types v) := by
    unfold checkField
    split
    · exact steady_pure _
    · next type _ =>
      refine steady_get.bind fun m => ?_
      refine (steady_ofExcept (checkType_ne types _ type v)).bind fun holds => ?_
      cases holds with
      | true => exact steady_pure _
      | false =>
        exact steady_fail (by simp [RuntimeError.fieldMismatch, RuntimeError.depthExceeded])
  have fresh : Steady fresh := fun _ => ⟨rfl, rfl⟩
  exact check.bind fun _ => fresh.bind fun _ => steady_modify fun _ => ⟨rfl, rfl⟩

/-! ### Errors -/

/-- Actions that end with no signal but an error. -/
def Errs (x : Exec α) : Prop := ∀ m signal m', x m = .error signal m' → ∃ e, signal = .error e

theorem Errs.bind {x : Exec α} {f : α → Exec β} (first : Errs x) (next : ∀ a, Errs (f a)) :
    Errs (x >>= f) := by
  intro m signal m' failed
  rcases bind_eq_error failed with before | ⟨a, m₁, _, after⟩
  · exact first m signal m' before
  · exact next a m₁ signal m' after

theorem Steady.errs {x : Exec α} (steady : Steady x) : Errs x := by
  intro m signal m' failed
  have kept := steady m
  rw [failed] at kept
  obtain ⟨_, e, same, _⟩ := kept
  exact ⟨e, same⟩

theorem errs_pure (a : α) : Errs (pure a : Exec α) := fun _ _ _ failed => by cases failed

theorem errs_modify (f : Machine → Machine) : Errs (modify f : Exec Unit) :=
  fun _ _ _ failed => by cases failed

theorem errs_fail (e : RuntimeError) : Errs (fail e : Exec α) := by
  intro m signal m' failed
  cases failed
  exact ⟨e, rfl⟩

theorem errs_ofExcept (x : Except RuntimeError α) : Errs (ofExcept x) := by
  cases x with
  | ok a => exact errs_pure a
  | error e => exact errs_fail e

theorem errs_popAs {operator expected : String} {read? : Value → Option α} :
    Errs (popAs operator expected read?) := by
  refine steady_pop.errs.bind fun v => ?_
  cases read? v with
  | some a => exact errs_pure a
  | none => exact errs_fail _

theorem errs_pushFrame (f : Frame) : Errs (pushFrame f) := by
  intro m signal m' failed
  simp only [pushFrame] at failed
  split at failed <;> cases failed
  exact ⟨_, rfl⟩

/-! ### Calls -/

/-- A call is made if there is room for its frames and the parameters bind in the new scope, which
is left again if they do not. -/
theorem enter_cases (c : Closure Value) (m : Machine) :
    (m.maxFrames < m.frames.size + 2 ∧ enter c m = .error (.error .depthExceeded) m) ∨
    m.frames.size + 2 ≤ m.maxFrames ∧
      ((∃ m₁, bindParameters c { m with scopes := m.scopes.enter c.activation } = .ok () m₁ ∧
        enter c m = .ok ()
          { m₁ with
            operands := m₁.operands.forbid
            frames := (m₁.frames.push (.call c m₁.operands.count)).push (.body c.body) }) ∨
      ∃ signal m₁,
        bindParameters c { m with scopes := m.scopes.enter c.activation } = .error signal m₁ ∧
        enter c m = .error signal { m₁ with scopes := m₁.scopes.leave }) := by
  by_cases full : m.maxFrames < m.frames.size + 2
  · refine .inl ⟨full, ?_⟩
    simp only [enter, Bind.bind, EStateM.bind, get_apply, if_pos full]
    rfl
  · have begun : enter c m =
        (do
          try bindParameters c
          catch signal =>
            leaveScope
            throw signal
          beginBody c) { m with scopes := m.scopes.enter c.activation } := by
      simp only [enter, Bind.bind, EStateM.bind, get_apply, if_neg full]
      rfl
    refine .inr ⟨Nat.not_lt.1 full, ?_⟩
    rw [begun]
    simp only [Bind.bind, EStateM.bind, tryCatch_apply]
    cases bindParameters c { m with scopes := m.scopes.enter c.activation } with
    | ok _ m₁ => exact .inl ⟨m₁, rfl, rfl⟩
    | error signal m₁ => exact .inr ⟨signal, m₁, rfl, rfl⟩

end Exec

end Catena
