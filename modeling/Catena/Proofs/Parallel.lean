import Catena.Proofs.Alike

set_option autoImplicit false

/-!
Actions that run in parallel. Started on machines that are alike above their grounds, they end in
the same way, with related answers or signals, and leave the machines alike. Running in parallel is
kept by sequencing, so it is shown of an operation by following its text.
-/

namespace Catena

/-- The action ended because there was no room for a frame. -/
def Refused {α : Type} (x : EStateM.Result Signal Machine α) : Prop :=
  ∃ m, x = .error (.error .depthExceeded) m ∧ m.maxFrames < m.frames.size + 2

/-- It is so with the machine on the deeper ground. -/
def Deeper (A B : Ground) (left right : Prop) : Prop :=
  (A.frames.length ≤ B.frames.length → right) ∧ (B.frames.length ≤ A.frames.length → left)

theorem Deeper.either {A B : Ground} {left right : Prop} (deeper : Deeper A B left right) :
    left ∨ right := by
  rcases Nat.le_total A.frames.length B.frames.length with le | le
  · exact .inr (deeper.1 le)
  · exact .inl (deeper.2 le)

theorem Deeper.imp {A B : Ground} {left left' right right' : Prop} (deeper : Deeper A B left right)
    (hl : left → left') (hr : right → right') : Deeper A B left' right' :=
  ⟨fun le => hr (deeper.1 le), fun le => hl (deeper.2 le)⟩

/-- How two actions end that started with the registers `r` and `s`. Only grounds of different
depths allow one of them to run out of frames when the other does not. -/
inductive EndAlike {α β : Type} (A B : Ground) (p : Pairing) (V : Pairing → α → β → Prop)
    (r s : Registers) : EStateM.Result Signal Machine α → EStateM.Result Signal Machine β → Prop
  | ok {q own own' a b m n} : p ≤ q → V q a b → Alike A B q own own' m n → m.registers = r →
      n.registers = s → EndAlike A B p V r s (.ok a m) (.ok b n)
  | error {q own own' signal signal' m n} : p ≤ q → signal.Same q.rel signal' →
      Alike A B q own own' m n → m.registers = r → n.registers = s →
      EndAlike A B p V r s (.error signal m) (.error signal' n)
  | refused {x y} : A.frames.length ≠ B.frames.length → Deeper A B (Refused x) (Refused y) →
      EndAlike A B p V r s x y

/-- Actions that run in parallel above two grounds; answers are related by `V`. -/
def Parallel {α β : Type} (A B : Ground) (p : Pairing) (V : Pairing → α → β → Prop) (x : Exec α)
    (y : Exec β) : Prop :=
  ∀ q own own' m n, p ≤ q → Alike A B q own own' m n →
    EndAlike A B q V m.registers n.registers (x m) (y n)

/-- Actions whose answers do not matter. -/
abbrev Parallel.Silent (A B : Ground) (p : Pairing) (x y : Exec Unit) : Prop :=
  Parallel A B p (fun _ _ _ => True) x y

/-- Actions that answer the same value. -/
abbrev Parallel.Valued (A B : Ground) (p : Pairing) (x y : Exec Value) : Prop :=
  Parallel A B p (fun q => Value.Same q.rel) x y

variable {α β γ δ : Type} {A B : Ground} {p q : Pairing} {r s : Registers}
  {V : Pairing → α → β → Prop} {W : Pairing → γ → δ → Prop}

theorem EndAlike.lower {x : EStateM.Result Signal Machine α} {y : EStateM.Result Signal Machine β}
    (ends : EndAlike A B q V r s x y) (le : p ≤ q) : EndAlike A B p V r s x y := by
  cases ends with
  | ok le' ab alike hm hn => exact .ok (le_trans le le') ab alike hm hn
  | error le' same alike hm hn => exact .error (le_trans le le') same alike hm hn
  | refused depths refused => exact .refused depths refused

/-- One action after another. A refusal ends the whole sequence. -/
theorem EndAlike.bind {x : Exec α} {y : Exec β} {f : α → Exec γ} {g : β → Exec δ} {m n : Machine}
    (first : EndAlike A B p V r s (x m) (y n))
    (next : ∀ q own own' a b m' n', p ≤ q → V q a b → x m = .ok a m' → y n = .ok b n' →
      Alike A B q own own' m' n' → m'.registers = r → n'.registers = s →
      EndAlike A B q W r s (f a m') (g b n')) :
    EndAlike A B p W r s ((x >>= f) m) ((y >>= g) n) := by
  simp only [Bind.bind, EStateM.bind]
  generalize left : x m = x' at first
  generalize right : y n = y' at first
  cases first with
  | ok le ab alike hm hn => exact (next _ _ _ _ _ _ _ le ab left right alike hm hn).lower le
  | error le same alike hm hn => exact .error le same alike hm hn
  | refused depths refused =>
    refine .refused depths (refused.imp ?_ ?_)
    · rintro ⟨m', rfl, full⟩
      exact ⟨m', rfl, full⟩
    · rintro ⟨n', rfl, full⟩
      exact ⟨n', rfl, full⟩

theorem EndAlike.thenPure {x : Exec α} {y : Exec β} {m n : Machine}
    (ends : EndAlike A B p V r s (x m) (y n)) (c : γ) :
    EndAlike A B p (fun _ => Eq) r s ((x >>= fun _ => Pure.pure c) m)
      ((y >>= fun _ => Pure.pure c) n) :=
  ends.bind fun q _ _ _ _ _ _ _ _ _ _ alike hm hn => .ok (le_refl q) rfl alike hm hn

namespace Parallel

theorem pure {a : α} {b : β} (ab : ∀ q, p ≤ q → V q a b) :
    Parallel A B p V (Pure.pure a) (Pure.pure b) := by
  intro q own own' m n le alike
  exact .ok (le_refl q) (ab q le) alike rfl rfl

theorem throw {signal signal' : Signal} (same : signal.Same p.rel signal') :
    Parallel A B p V (MonadExcept.throw signal) (MonadExcept.throw signal') := by
  intro q own own' m n le alike
  exact .error (le_refl q) (same.mono le.1) alike rfl rfl

theorem fail (e : RuntimeError) : Parallel A B p V (Exec.fail e) (Exec.fail e) :=
  throw .error

theorem mismatch (operator expected : String) {v w : Value} (vw : v.Same p.rel w) :
    Parallel A B p V (Exec.fail (.mismatch operator expected v))
      (Exec.fail (.mismatch operator expected w)) := by
  rw [RuntimeError.mismatch, RuntimeError.mismatch, vw.culprit]
  exact fail _

theorem bind {x : Exec α} {y : Exec β} {f : α → Exec γ} {g : β → Exec δ}
    (first : Parallel A B p V x y)
    (next : ∀ q a b, p ≤ q → V q a b → Parallel A B q W (f a) (g b)) :
    Parallel A B p W (x >>= f) (y >>= g) := by
  intro q own own' m n le alike
  refine (first q own own' m n le alike).bind ?_
  intro q' above above' a b m' n' le' ab _ _ alike' hm hn
  have rest := next q' a b (le_trans le le') ab q' above above' m' n' (le_refl q') alike'
  rwa [hm, hn] at rest

theorem map {x : Exec α} {y : Exec β} {f : α → γ} {g : β → δ} (run : Parallel A B p V x y)
    (fg : ∀ q a b, p ≤ q → V q a b → W q (f a) (g b)) :
    Parallel A B p W (f <$> x) (g <$> y) := by
  intro q own own' m n le alike
  rw [map_eq_pure_bind, map_eq_pure_bind]
  refine (run q own own' m n le alike).bind ?_
  intro q' above above' a b m' n' le' ab _ _ alike' hm hn
  exact .ok (le_refl q') (fg q' a b (le_trans le le') ab) alike' hm hn

theorem ofExcept {R : α → β → Prop} {x : Except RuntimeError α} {y : Except RuntimeError β}
    (ends : Ends R x y) (answers : ∀ q a b, p ≤ q → R a b → V q a b) :
    Parallel A B p V (Exec.ofExcept x) (Exec.ofExcept y) := by
  cases ends with
  | ok ab => exact pure fun q le => answers q _ _ le ab
  | error => exact fail _

/-- A check that answers the same on both sides. -/
theorem check {x y : Except RuntimeError α} (same : y = x) :
    Parallel A B p (fun _ => Eq) (Exec.ofExcept x) (Exec.ofExcept y) := by
  subst same
  exact ofExcept (Ends.refl y) fun _ _ _ _ ab => ab

theorem get : Parallel A B p (fun q m n => ∃ own own', Alike A B q own own' m n)
    (MonadState.get : Exec Machine) MonadState.get := by
  intro q own own' m n _ alike
  exact .ok (le_refl q) ⟨own, own', alike⟩ alike rfl rfl

theorem update {f g : Machine → Machine} (registers : ∀ m, (f m).registers = m.registers)
    (registers' : ∀ n, (g n).registers = n.registers)
    (step : ∀ q own own' m n, p ≤ q → Alike A B q own own' m n →
      ∃ above above', Alike A B q above above' (f m) (g n)) :
    Parallel.Silent A B p (modify f) (modify g) := by
  intro q own own' m n le alike
  obtain ⟨above, above', alike'⟩ := step q own own' m n le alike
  exact .ok (le_refl q) trivial alike' (registers m) (registers' n)

/-! ### Operands -/

theorem push {v w : Value} (vw : v.Same p.rel w) :
    Parallel.Silent A B p (Exec.push v) (Exec.push w) := by
  refine update (fun _ => rfl) (fun _ => rfl) fun q own own' m n le alike => ?_
  exact ⟨own, own', alike.setOperands (alike.operands.push (vw.grow le)) rfl rfl⟩

theorem pop : Parallel.Valued A B p Exec.pop Exec.pop := by
  intro q own own' m n le alike
  have popped := alike.operands.pop
  simp only [Exec.pop]
  generalize m.operands.pop = x at popped
  generalize n.operands.pop = y at popped
  cases popped with
  | error => exact .error (le_refl q) .error alike rfl rfl
  | @ok a b rest =>
    obtain ⟨vw, same, left, right⟩ := rest
    exact .ok (le_refl q) vw (alike.setOperands same left right) rfl rfl

theorem peek (offset : Nat) : Parallel.Valued A B p (Exec.peek offset) (Exec.peek offset) := by
  refine get.bind fun q m n _ alike => ?_
  obtain ⟨own, own', alike⟩ := alike
  exact ofExcept (alike.operands.peek offset) fun _ _ _ le vw => vw.grow le

/-- Taking an operand that must be of some kind. -/
theorem popAs (operator expected : String) {read? : Value → Option α}
    {read?' : Value → Option β}
    (reads : ∀ q v w, v.Same q.rel w → Option.Rel (V q) (read? v) (read?' w)) :
    Parallel A B p V (Exec.popAs operator expected read?)
      (Exec.popAs operator expected read?') := by
  refine pop.bind fun q v w _ vw => ?_
  have first := reads q v w vw
  cases read : read? v with
  | none =>
    rw [read] at first
    cases read' : read?' w with
    | some b => rw [read'] at first; cases first
    | none => exact mismatch operator expected vw
  | some a =>
    rw [read] at first
    cases read' : read?' w with
    | none => rw [read'] at first; cases first
    | some b =>
      refine pure fun q' le => ?_
      have later := reads q' v w (vw.grow le)
      rw [read, read'] at later
      cases later with
      | some ab => exact ab

/-- Reading a value without identities. -/
theorem popPlain (operator expected : String) {read? : Value → Option α}
    (plain : ∀ v, v.isPlain = false → read? v = none) :
    Parallel A B p (fun _ => Eq) (Exec.popAs operator expected read?)
      (Exec.popAs operator expected read?) := by
  refine popAs operator expected fun q v w vw => ?_
  cases vw with
  | plain =>
    cases read? v with
    | none => exact .none
    | some a => exact .some rfl
  | _ =>
    rw [plain _ rfl, plain _ rfl]
    exact .none

theorem popInt (operator : String) :
    Parallel A B p (fun _ => Eq) (Exec.popInt operator) (Exec.popInt operator) :=
  popPlain operator "Int" fun v free => by cases v <;> first | rfl | cases free

theorem popBool (operator : String) :
    Parallel A B p (fun _ => Eq) (Exec.popBool operator) (Exec.popBool operator) :=
  popPlain operator "Bool" fun v free => by cases v <;> first | rfl | cases free

theorem popStr (operator : String) :
    Parallel A B p (fun _ => Eq) (Exec.popStr operator) (Exec.popStr operator) :=
  popPlain operator "Str" fun v free => by cases v <;> first | rfl | cases free

theorem popName (operator : String) :
    Parallel A B p (fun _ => Eq) (Exec.popName operator) (Exec.popName operator) :=
  popPlain operator "a name" fun v free => by cases v <;> first | rfl | cases free

theorem popBody (operator : String) :
    Parallel A B p (fun q => SameAll q.rel) (Exec.popBody operator) (Exec.popBody operator) := by
  refine popAs operator "a quotation" fun q v w vw => ?_
  cases vw with
  | plain free => cases v <;> first | exact .none | cases free
  | quote _ ab => exact .some ab
  | _ => exact .none

theorem popCallable (operator : String) :
    Parallel.Valued A B p (Exec.popCallable operator) (Exec.popCallable operator) := by
  refine popAs operator "a quotation" fun q v w vw => ?_
  rw [vw.isCallable]
  by_cases callable : v.isCallable = true
  · rw [if_pos callable, if_pos callable]
    exact .some vw
  · rw [if_neg callable, if_neg callable]
    exact .none

/-! ### Identities, names and frames -/

theorem fresh : Parallel A B p (fun q => q.rel) Exec.fresh Exec.fresh := by
  intro q own own' m n _ alike
  refine .ok q.le_next ?_ alike.fresh rfl rfl
  rw [alike.nextId, alike.nextId']
  exact q.rel_next

theorem pushArray {a b : List Value} (same : SameAll p.rel a b) :
    Parallel.Silent A B p (Exec.pushArray a) (Exec.pushArray b) :=
  fresh.bind fun _ _ _ le ij => push (.array ij (same.grow le))

theorem put (name : String) {v w : Value} (vw : v.Same p.rel w) :
    Parallel.Silent A B p (Exec.put name v) (Exec.put name w) := by
  refine update (fun _ => rfl) (fun _ => rfl) fun q own own' m n le alike => ?_
  exact ⟨own, own', alike.setActive (alike.active.insert name (vw.grow le))⟩

theorem define (name : String) {v w : Value} (vw : v.Same p.rel w) :
    Parallel.Silent A B p (Exec.define name v) (Exec.define name w) := by
  intro q own own' m n le alike
  simp only [Exec.define, Exec.change, Machine.define, alike.isBuiltin name]
  by_cases builtin : m.isBuiltin name = true
  · rw [if_pos builtin, if_pos builtin]
    exact .error (le_refl q) .error alike rfl rfl
  · rw [if_neg builtin, if_neg builtin]
    have active := alike.active.insert name (vw.grow le)
    exact .ok (le_refl q) trivial (alike.setActive active) rfl rfl

/-- Room for a frame on one side is room on the other, unless the grounds differ in depth. -/
theorem room {own own' : List Frame} {m n : Machine} (alike : Alike A B p own own' m n)
    (needed : Nat) :
    (m.maxFrames < m.frames.size + needed ∧ n.maxFrames < n.frames.size + needed) ∨
      (¬ m.maxFrames < m.frames.size + needed ∧ ¬ n.maxFrames < n.frames.size + needed) ∨
      (A.frames.length ≠ B.frames.length ∧
        Deeper A B (m.maxFrames < m.frames.size + needed)
          (n.maxFrames < n.frames.size + needed)) := by
  have size := congrArg List.length alike.frames
  have size' := congrArg List.length alike.frames'
  have above := alike.same.length_eq
  have limit := alike.maxFrames
  simp only [List.length_append, Stack.length_eq] at size size'
  by_cases left : m.maxFrames < m.frames.size + needed
  · by_cases right : n.maxFrames < n.frames.size + needed
    · exact .inl ⟨left, right⟩
    · exact .inr (.inr ⟨by omega, fun le => by omega, fun _ => left⟩)
  · by_cases right : n.maxFrames < n.frames.size + needed
    · exact .inr (.inr ⟨by omega, fun _ => right, fun le => by omega⟩)
    · exact .inr (.inl ⟨left, right⟩)

/-- What follows a frame that is pushed has to be looked at only if there is room for the frame. -/
theorem pushFrameThen {own own' : List Frame} {m n : Machine} {f g : Frame} {x : Exec α}
    {y : Exec β} (alike : Alike A B p own own' m n)
    (next : EndAlike A B p V m.registers n.registers (x { m with frames := m.frames.push f })
      (y { n with frames := n.frames.push g })) :
    EndAlike A B p V m.registers n.registers ((Exec.pushFrame f >>= fun _ => x) m)
      ((Exec.pushFrame g >>= fun _ => y) n) := by
  have full : ∀ m : Machine, m.maxFrames ≤ m.frames.size ↔ m.maxFrames < m.frames.size + 1 :=
    fun m => Nat.lt_succ_iff.symm
  simp only [Bind.bind, EStateM.bind, Exec.pushFrame, full]
  rcases room alike 1 with ⟨left, right⟩ | ⟨left, right⟩ | ⟨depths, refused⟩
  · rw [if_pos left, if_pos right]
    exact .error (le_refl p) .error alike rfl rfl
  · rw [if_neg left, if_neg right]
    exact next
  · refine .refused depths (refused.imp (fun left => ?_) fun right => ?_)
    · rw [if_pos left]
      exact ⟨m, rfl, by omega⟩
    · rw [if_pos right]
      exact ⟨n, rfl, by omega⟩

theorem pushFrame {f g : Frame} (fg : f.Same p.rel g) (unmarked : f.mark? = none)
    (code : f.isProgram = false) :
    Parallel.Silent A B p (Exec.pushFrame f) (Exec.pushFrame g) := by
  intro q own own' m n le alike
  have free : f.floor? = none := by
    cases f <;> first | rfl | cases unmarked
  have pushed := alike.pushFrame (fg.mono le.1) free (by simp [unmarked]) fun _ _ => code
  have ends := pushFrameThen (x := Pure.pure ()) (y := Pure.pure ()) alike
    (.ok (V := fun _ _ _ => True) (le_refl q) trivial pushed rfl rfl)
  simpa only [bind_pure_unit] using ends

end Parallel

end Catena
