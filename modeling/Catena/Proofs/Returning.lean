import Catena.Proofs.Entering

set_option autoImplicit false

/-!
What a closure leaves when it returns. However long it has run and whichever closures have taken its
place, the operands of its caller are still there when it is left, and what lies above them is what
the closure returns: exactly the values that it declares, or an error is thrown instead.
-/

namespace Catena

/-! ### Moments at which a frame stays -/

theorem Frame.Becomes.trans {f g h : Frame} (first : f.Becomes g) (second : g.Becomes h) :
    f.Becomes h := by
  cases first with
  | same => exact second
  | replaced c d floor =>
    cases second with
    | same => exact .replaced c d floor
    | replaced _ e => exact .replaced c e floor

theorem Frame.Becomes.call {c : Closure Value} {floor : Nat} {g : Frame}
    (becomes : (Frame.call c floor).Becomes g) : ∃ d, g = .call d floor := by
  cases becomes with
  | same => exact ⟨c, rfl⟩
  | replaced _ d => exact ⟨d, rfl⟩

theorem Machine.Stays.trans {i : Nat} {m m₁ m₂ : Machine} (first : Stays i m m₁)
    (second : Stays i m₁ m₂) : Stays i m m₂ := by
  obtain ⟨f, g, found, found₁, becomes⟩ := first
  obtain ⟨g', h, found₁', found₂, becomes'⟩ := second
  obtain rfl : g = g' := Option.some.inj (found₁.symm.trans found₁')
  exact ⟨f, h, found, found₂, becomes.trans becomes'⟩

namespace Moment

variable {S : Base} {x y : Moment} {i : Nat}

/-- One moment after another, with the frame at a position still there. -/
abbrev Keeps (i : Nat) : Moment → Moment → Prop :=
  Relation.ReflTransGen fun x y => x.Next y ∧ Machine.Stays i x.machine y.machine

/-- The machine stands on a base. An error that has been thrown is seen from before. -/
def Stands (S : Base) : Moment → Prop
  | .running m => ∃ k p f g n, .self k ≤ p ∧ Standing S p f g m n
  | .thrown e m => ∃ k p f g n before, .self k ≤ p ∧ Standing S p f g before n ∧
      before.act = .throws e m ∧ Machine.Stays S.lower.length before m

/-- A part of a step that keeps the frame at the base. -/
theorem stands_of_pass {k : Nat} {p : Pairing} {f g : Frame} {m n m' : Machine}
    {said : Option Step} (le : .self k ≤ p) (standing : Standing S p f g m n)
    (passed : m.pass = (said, m')) (stays : Machine.Stays S.lower.length m m') :
    Stands S (.running m') := by
  obtain ⟨A, B, own, own', footing, alike⟩ := standing
  have gone : GoneAlike S p f g m.pass n.pass := by
    have control : m.control.Same p.rel n.control := alike.registers.control
    by_cases calm : m.control = .none
    · have calm' : n.control = .none := by
        rw [calm] at control
        generalize n.control = y at control ⊢
        cases control
        rfl
      rw [Machine.pass_of_calm calm] at passed ⊢
      rw [Machine.pass_of_calm calm']
      exact footing.turn alike (by rw [passed]; exact stays)
    · have calm' : n.control ≠ .none := by
        intro none
        rw [none] at control
        generalize m.control = y at control calm
        cases control
        exact calm rfl
      rw [Machine.pass_of_control calm] at passed ⊢
      rw [Machine.pass_of_control calm']
      exact footing.heed alike (by rw [passed]; exact stays)
  rw [passed] at gone
  generalize n.pass = z at gone
  cases gone with
  | intro le' standing' => exact ⟨k, _, _, _, _, le_trans le le', standing'⟩

theorem Stands.next (stands : x.Stands S) (next : x.Next y)
    (stays : Machine.Stays S.lower.length x.machine y.machine) : y.Stands S := by
  cases next with
  | act m =>
    obtain ⟨k, p, f, g, n, le, standing⟩ := stands
    cases acted : m.act with
    | goes said m' =>
      rw [acted] at stays
      have passed : m.pass = (said, m') := by
        rw [← Machine.act_result, acted]
        rfl
      exact stands_of_pass le standing passed stays
    | throws e m' =>
      rw [acted] at stays
      exact ⟨k, p, f, g, n, m, le, standing, acted, stays⟩
  | handed e m =>
    obtain ⟨k, p, f, g, n, before, le, standing, acted, stayed⟩ := stands
    have passed : before.pass = Machine.ending (m.raiseError e) := by
      rw [← Machine.act_result, acted]
      rfl
    exact stands_of_pass le standing passed (stayed.trans stays)
  | answered reply _ =>
    obtain ⟨k, p, f, g, n, le, standing⟩ := stands
    exact ⟨k, p, f, g, _, le, standing.answer (reply.same_self fun i => le.1 i i rfl)⟩

theorem Stands.keeps (stands : x.Stands S) (keeps : Keeps S.lower.length x y) : y.Stands S := by
  induction keeps with
  | refl => exact stands
  | tail _ next ih => exact ih.next next.1 next.2

theorem Keeps.reaches (keeps : Keeps i x y) : Reaches x y := by
  induction keeps with
  | refl => exact .refl
  | tail _ next ih => exact .tail ih next.1

/-- The frame is there to the end, up to the closures that tail calls have put into it. -/
theorem Keeps.becomes {f : Frame} (keeps : Keeps i x y) (found : x.machine.frameAt? i = some f) :
    ∃ g, y.machine.frameAt? i = some g ∧ f.Becomes g := by
  induction keeps with
  | refl => exact ⟨f, found, .same f⟩
  | tail _ next ih =>
    obtain ⟨g, here, becomes⟩ := ih
    obtain ⟨g', h, here', there, becomes'⟩ := next.2
    obtain rfl : g = g' := Option.some.inj (here.symm.trans here')
    exact ⟨h, there, becomes.trans becomes'⟩

end Moment

/-- As long as a frame that holds a floor stays, so do the frames and the operands under it. -/
theorem Aligned.kept_under {m now : Machine} {f : Frame} {floor : Nat} {above lower : List Frame}
    (aligned : Aligned m) (frames : m.frames.toList = above ++ f :: lower)
    (holds : f.floor? = some floor)
    (keeps : Moment.Keeps lower.length (.running m) (.running now)) :
    ∃ own g, now.frames.toList = own ++ g :: lower ∧ f.Becomes g ∧ floor ≤ now.operands.count ∧
      now.operands.toList.take floor = m.operands.toList.take floor := by
  have found := Machine.frameAt?_of_append frames
  obtain ⟨S, standing, depth, rfl, _⟩ := aligned.standing found holds
  rw [← depth] at keeps found
  have stands : Moment.Stands S (.running m) := ⟨_, _, _, _, _, le_refl _, standing⟩
  obtain ⟨k, p, f', g, n, _, standing'⟩ := stands.keeps keeps
  obtain ⟨h, there, becomes⟩ := Moment.Keeps.becomes keeps found
  obtain rfl : f' = h := Option.some.inj (standing'.frameAt?.1.symm.trans there)
  obtain ⟨⟨_, before⟩, _⟩ := standing.below
  obtain ⟨⟨reach, after⟩, _⟩ := standing'.below
  obtain ⟨_, _, own₀, _, footing, alike⟩ := standing
  obtain ⟨_, _, own, _, footing', alike'⟩ := standing'
  have lower₀ : S.lower = lower := by
    have both := frames.symm.trans (alike.frames.trans (congrArg _ footing.frames))
    have same := (List.append_inj' both (by simp [depth])).2
    exact (List.cons.inj same).2.symm
  refine ⟨own, f', ?_, becomes, reach, after.trans before.symm⟩
  rw [alike'.frames, footing'.frames, lower₀]

/-- As long as the frame of a closure stays, so do the frames and the operands under it. -/
theorem Aligned.kept_below {m now : Machine} {c : Closure Value} {floor : Nat}
    {above lower : List Frame} (aligned : Aligned m)
    (frames : m.frames.toList = above ++ .call c floor :: lower)
    (keeps : Moment.Keeps lower.length (.running m) (.running now)) :
    ∃ own d, now.frames.toList = own ++ .call d floor :: lower ∧ floor ≤ now.operands.count ∧
      now.operands.toList.take floor = m.operands.toList.take floor := by
  obtain ⟨own, g, frames', becomes, kept⟩ := aligned.kept_under frames rfl keeps
  obtain ⟨d, rfl⟩ := becomes.call
  exact ⟨own, d, frames', kept⟩

/-! ### Results -/

/-- There are as many values as types, and each has its type in the active scope. -/
abbrev HaveTypes (active : Scope) : List String → List Value → Prop :=
  List.Forall₂ fun type v => checkType active active type v = .ok true

/-- The results are those that a closure declares. A closure that declares none may leave
anything. -/
def Closure.Returns (c : Closure Value) (active : Scope) (results : List Value) : Prop :=
  ∀ signature ∈ c.signature, ∀ types ∈ signature.returns, HaveTypes active types results

/-- As many results as types are accepted if each has its type, and refused otherwise. -/
theorem checkResults_cases (active : Scope) (position : Nat) {types : List String}
    {results : List Value} (count : types.length = results.length) :
    (checkResults active position types results = .ok () ∧ HaveTypes active types results) ∨
    ((∃ text, checkResults active position types results = .error (.typeMismatch text)) ∧
      ¬ HaveTypes active types results) := by
  induction types generalizing position results with
  | nil =>
    obtain rfl : results = [] := List.eq_nil_of_length_eq_zero count.symm
    exact .inl ⟨rfl, .nil⟩
  | cons type types ih =>
    cases results with
    | nil => cases count
    | cons v results =>
      have refused (other : checkType active active type v ≠ .ok true) :
          ¬ HaveTypes active (type :: types) (v :: results) := by
        intro all
        cases all with
        | cons first _ => exact other first
      rw [checkResults]
      cases checked : checkType active active type v with
      | error e =>
        obtain rfl := checkType_eq_error checked
        exact .inr ⟨⟨_, rfl⟩, refused (by simp [checked])⟩
      | ok verdict =>
        cases verdict with
        | false => exact .inr ⟨⟨_, rfl⟩, refused (by simp [checked])⟩
        | true =>
          rcases ih (position + 1) (Nat.succ.inj count) with ⟨passed, all⟩ | ⟨failed, some⟩
          · exact .inl ⟨passed, .cons checked all⟩
          · refine .inr ⟨failed, fun all => ?_⟩
            cases all with
            | cons _ rest => exact some rest

/-- A closure is left if and only if its results are those that it declares. -/
theorem Exec.checkLeft_cases (c : Closure Value) (m : Machine) (floor : Nat) :
    (Exec.checkLeft c floor m = .ok () m ∧
      c.Returns m.scopes.active (m.operands.valuesFrom floor)) ∨
    ((∃ e, Exec.checkLeft c floor m = .error (.error e) m ∧
        ((∃ text, e = .arity text) ∨ ∃ text, e = .typeMismatch text)) ∧
      ¬ c.Returns m.scopes.active (m.operands.valuesFrom floor)) := by
  have length : (m.operands.valuesFrom floor).length = m.operands.count - floor := by
    simp [Operands.valuesFrom, Stack.above, Stack.length_eq, Operands.count]
  unfold Closure.Returns Exec.checkLeft
  cases c.signature with
  | none => exact .inl ⟨rfl, by simp⟩
  | some signature =>
    simp only [Option.mem_some_iff, forall_eq']
    simp only [Bind.bind, EStateM.bind, Exec.get_apply, Machine.checkReturns]
    cases signature.returns with
    | none => exact .inl ⟨rfl, by simp⟩
    | some types =>
      simp only [Option.mem_some_iff, forall_eq']
      have counts (all : HaveTypes m.scopes.active types (m.operands.valuesFrom floor)) :
          types.length = m.operands.count - floor := all.length_eq.trans length
      by_cases few : m.operands.count - floor < types.length
      · rw [if_pos few]
        refine .inr ⟨⟨_, rfl, .inl ⟨_, rfl⟩⟩, fun all => ?_⟩
        have := counts all
        omega
      · rw [if_neg few]
        by_cases many : types.length < m.operands.count - floor
        · rw [if_pos many]
          refine .inr ⟨⟨_, rfl, .inl ⟨_, rfl⟩⟩, fun all => ?_⟩
          have := counts all
          omega
        · rw [if_neg many]
          rcases checkResults_cases m.scopes.active 1
            (show types.length = (m.operands.valuesFrom floor).length by omega) with
            ⟨passed, all⟩ | ⟨⟨text, failed⟩, some⟩
          · rw [passed]
            exact .inl ⟨rfl, all⟩
          · rw [failed]
            exact .inr ⟨⟨_, rfl, .inr ⟨text, rfl⟩⟩, some⟩

theorem Operands.toList_eq (s : Operands) {floor : Nat} (reach : floor ≤ s.count) :
    s.toList = s.toList.take floor ++ s.valuesFrom floor := by
  have height : s.items.size - (s.items.size - floor) = floor := Nat.sub_sub_self reach
  have upper : s.valuesFrom floor = s.toList.drop floor := by
    rw [valuesFrom, Stack.above, toList, List.reverse_take, Stack.length_eq, height]
  rw [upper, List.take_append_drop]

/-- Take any call of a closure in a run on an idle machine, made when the operands were `X` with the
arguments on top, and let the frame of that call stay until nothing is above it. However many tail
calls have been made, the caller's frames and operands are then what they were, and the closure that
is in the frame now either returns what it declares, and the caller goes on with that, or an error
says that it does not. -/
theorem call_returns {m₀ m₁ m n m' now : Machine} {c : Closure Value} {X args : List Value}
    (idle : m₀.Idle) (loaded : m₀.Loaded m₁)
    (reaches : Moment.Reaches (.running m₁) (.running m)) (calls : m.Calls c n m')
    (operands : n.operands.toList = X ++ args) (arguments : args.length = c.arity)
    (keeps : Moment.Keeps n.frames.size (.running m') (.running now))
    (calm : now.control = .none) (top : now.frames.size = n.frames.size + 1) :
    ∃ d R, now.frames.toList = .call d X.length :: n.frames.toList ∧
      now.operands.toList = X ++ R ∧
      ((d.Returns now.scopes.active R ∧ ∃ after, now.act = .goes none after ∧
          after.frames.toList = n.frames.toList ∧ after.operands.toList = X ++ R) ∨
        (¬ d.Returns now.scopes.active R ∧ ∃ e, now.act = .throws (now.locate e) now ∧
          ((∃ text, e = .arity text) ∨ ∃ text, e = .typeMismatch text))) := by
  obtain ⟨said, k, goes, entered⟩ := calls
  have sound : (Moment.running m').Sound := by
    have next := Moment.Next.act m
    rw [goes] at next
    exact Moment.Reaches.sound (.tail reaches next) (loaded.sound idle)
  -- The call has taken the arguments and left `X`, at whose height its floor is.
  obtain ⟨args', arguments', operands'⟩ := Exec.arguments_of_enter entered
  obtain ⟨rfl, rfl⟩ := List.append_inj' (operands.symm.trans operands')
    (arguments.trans arguments'.symm)
  obtain ⟨frames, _, _⟩ := Exec.enter_eq_ok entered
  have frames : m'.frames.toList =
      [.body c.body] ++ .call c m'.operands.count :: n.frames.toList := frames
  rw [← Stack.length_eq] at keeps
  obtain ⟨own, d, frames', reach, same⟩ := sound.1.kept_below frames keeps
  obtain rfl : own = [] := by
    have lengths := congrArg List.length frames'
    rw [Stack.length_eq, top, List.length_append, List.length_cons, Stack.length_eq] at lengths
    exact List.eq_nil_of_length_eq_zero (by omega)
  have caller : now.operands.toList.take m'.operands.count = m'.operands.toList := by
    rw [same, List.take_of_length_le (Nat.le_of_eq (Operands.length_toList _))]
  have split := now.operands.toList_eq reach
  rw [caller] at split
  refine ⟨d, now.operands.valuesFrom m'.operands.count, ?_, split, ?_⟩
  · rw [Operands.length_toList]
    exact frames'
  · have top : now.frames.pop? = some (.call d m'.operands.count, .ofList n.frames.toList) :=
      Stack.pop?_eq_some_iff.2 frames'
    rw [Machine.act_of_top calm top]
    simp only [Exec.advance, Exec.leaveCall, Bind.bind, EStateM.bind]
    rcases Exec.checkLeft_cases d now m'.operands.count with
      ⟨checked, returns⟩ | ⟨⟨e, checked, kind⟩, other⟩
    · rw [checked]
      exact .inl ⟨returns, _, rfl, rfl, split⟩
    · rw [checked]
      exact .inr ⟨other, e, rfl, kind⟩

/-! ### A closure that hands its argument on -/

theorem Moment.Keeps.act {i : Nat} {x : Moment} {m m' : Machine} {said : Option Step}
    (keeps : Keeps i x (.running m)) (goes : m.act = .goes said m') (stays : Machine.Stays i m m') :
    Keeps i x (.running m') := by
  have next := Next.act m
  rw [goes] at next
  exact .tail keeps ⟨next, stays⟩

/-- A closure that takes a value and returns it, a number. -/
def Closure.number : Closure Value :=
  ⟨0, some "f", [.ref "x" .none], some ⟨[⟨"x", none⟩], some ["Int"]⟩, .empty⟩

/-- A closure that leaves its argument to this one. -/
def Closure.handing : Closure Value :=
  ⟨1, some "g", [.ref "y" .none, .closure .number, .op (.primitive .tailCall) .none],
    some ⟨[⟨"y", none⟩], none⟩, .empty⟩

/-- A machine that knows the second one and has two operands. -/
def Machine.handing : Machine :=
  { registry := .standard
    operands := ⟨.ofList [.int 5, .int 7], []⟩
    scopes := ⟨⟨[("g", .closure .handing)]⟩, []⟩
    nextId := 2 }

/-- The machine in the course of the call. -/
def Machine.handing.inside (scope : Scope) (frames : List Frame) (items : List Value)
    (control : Control) (checkpoints : Nat) : Machine :=
  { Machine.handing with
    operands := ⟨.ofList items, [1]⟩
    scopes := Machine.handing.scopes.enter scope
    frames := .ofList (frames ++ [.body []])
    control
    checkpoints }

theorem call_returns_number :
    ∃ m' n now d R, (Machine.handing.loadValue (.ref "g" .none)).Calls .handing n m' ∧
      n.operands.toList = [.int 7] ++ [.int 5] ∧
      Moment.Keeps n.frames.size (.running m') (.running now) ∧
      now.frames.toList = [.call d 1, .body []] ∧ now.operands.toList = [.int 7] ++ R ∧
      R = [.int 5] ∧ d.Returns now.scopes.active R ∧
      ∃ after, now.act = .goes none after ∧ after.frames.toList = [.body []] := by
  have idle : Machine.handing.Idle := ⟨rfl, rfl, rfl, rfl, rfl, rfl⟩
  let n : Machine :=
    { Machine.handing.loadValue (.ref "g" .none) with frames := .ofList [.body []] }
  let y : Scope := Closure.handing.activation.insert "y" (.int 5)
  let x : Scope := Closure.number.activation.insert "x" (.int 5)
  let tail : Value := .op (.primitive .tailCall) .none
  let handing : Frame := .call .handing 1
  let number : Frame := .call .number 1
  let s₀ := Machine.handing.inside y [.body Closure.handing.body, handing] [.int 7] .none 1
  let s₁ := Machine.handing.inside y [.body [.closure .number, tail], handing] [.int 5, .int 7]
    .none 2
  let s₂ := Machine.handing.inside y [.body [tail], handing] [.closure .number, .int 5, .int 7]
    .none 3
  let s₃ := Machine.handing.inside y [.body [], handing] [.int 5, .int 7] (.tailCall .number) 4
  let s₄ := Machine.handing.inside x [.body Closure.number.body, number] [.int 7] .none 4
  let s₅ := Machine.handing.inside x [.body [], number] [.int 5, .int 7] .none 5
  let s₆ := Machine.handing.inside x [number] [.int 5, .int 7] .none 5
  have calls : (Machine.handing.loadValue (.ref "g" .none)).Calls .handing n s₀ :=
    ⟨_, 0, rfl, rfl⟩
  have signals : Exec.operation (.primitive .tailCall)
      (Machine.handing.inside y [.body [], handing] [.closure .number, .int 5, .int 7] .none 3) =
      .error (.tailCall .number)
        (Machine.handing.inside y [.body [], handing] [.int 5, .int 7] .none 3) :=
    rfl
  have pushes : s₀.act = .goes (some .checkpoint) s₁ := rfl
  have raised : s₂.act = .goes (some .checkpoint) s₃ :=
    Machine.act_of_signal (m := s₂) rfl rfl signals
  have pushed : Moment.Keeps 1 (.running s₀) (.running s₂) :=
    .act (.act .refl pushes ⟨_, _, rfl, rfl, .same handing⟩) rfl ⟨_, _, rfl, rfl, .same handing⟩
  have replaced : Moment.Keeps 1 (.running s₀) (.running s₄) :=
    .act (.act pushed raised ⟨_, _, rfl, rfl, .same handing⟩) rfl
      ⟨_, _, rfl, rfl, .replaced .handing .number 1⟩
  have looksUp : s₄.act = .goes (some .checkpoint) s₅ := rfl
  have keeps : Moment.Keeps 1 (.running s₀) (.running s₆) :=
    .act (.act replaced looksUp ⟨_, _, rfl, rfl, .same number⟩) rfl
      ⟨_, _, rfl, rfl, .same number⟩
  have given : n.operands.toList = [.int 7] ++ [.int 5] := rfl
  obtain ⟨d, R, frames, operands, returned | ⟨_, e, threw, _⟩⟩ :=
    call_returns idle (.value _) .refl calls given rfl keeps rfl rfl
  · obtain ⟨returns, after, goes, left, _⟩ := returned
    have results : R = [.int 5] := List.append_cancel_left operands.symm
    exact ⟨s₀, n, s₆, d, R, calls, given, keeps, frames, operands, results, returns, after, goes,
      left⟩
  · cases threw

end Catena
