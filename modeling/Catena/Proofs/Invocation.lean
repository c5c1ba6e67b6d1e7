import Catena.Proofs.Operation

set_option autoImplicit false

/-!
Running code in parallel: calls, values and tokens, and dealing with the topmost frame above the
ground.
-/

namespace Catena.Parallel

variable {A B : Ground} {p : Pairing}

/-! ### Calls -/

theorem beginBody {own own' : List Frame} {m n : Machine} {c d : Closure Value}
    (alike : Alike (A.awaiting 1) (B.awaiting 1) p own own' m n) (cd : c.Same p.rel d) :
    EndAlike A B p (fun _ _ _ => True) m.registers n.registers (Exec.beginBody c m)
      (Exec.beginBody d n) := by
  have frame : (Frame.call c m.operands.count).Same p.rel (.call d n.operands.count) := by
    rw [alike.operands.count_eq]
    exact .call cd
  have held := Alike.hold (f := .call c m.operands.count) (A := A) (B := B) alike frame rfl
  have body := held.pushFrame (.body cd.body) rfl (fun height held => by cases held) fun _ _ => rfl
  exact .ok (le_refl p) trivial body rfl rfl

/-- Binding parameters in a scope that has just been entered; if that fails, the scope is left. -/
theorem bindThenBegin {own own' : List Frame} {m n : Machine} {c d : Closure Value}
    (alike : Alike (A.awaiting 1) (B.awaiting 1) p own own' m n) (cd : c.Same p.rel d) :
    EndAlike A B p (fun _ _ _ => True) m.registers n.registers
      ((do
        try Exec.bindParameters c
        catch signal =>
          Exec.leaveScope
          MonadExcept.throw signal
        Exec.beginBody c) m)
      ((do
        try Exec.bindParameters d
        catch signal =>
          Exec.leaveScope
          MonadExcept.throw signal
        Exec.beginBody d) n) := by
  have ends := bindParameters cd p own own' m n (le_refl p) alike
  simp only [Bind.bind, EStateM.bind, Exec.tryCatch_apply]
  generalize Exec.bindParameters c m = x at ends
  generalize Exec.bindParameters d n = y at ends
  cases ends with
  | @ok q _ _ _ _ m' n' le _ alike' hm hn =>
    have rest := beginBody alike' (cd.grow le)
    rw [hm, hn] at rest
    exact rest.lower le
  | error le same alike' hm hn => exact .error le same alike'.leaveScope hm hn
  | refused depths refused =>
    refine .refused depths (refused.imp ?_ ?_)
    · rintro ⟨m', rfl, full⟩
      exact ⟨{ m' with scopes := m'.scopes.leave }, rfl, full⟩
    · rintro ⟨n', rfl, full⟩
      exact ⟨{ n' with scopes := n'.scopes.leave }, rfl, full⟩

theorem enter {c d : Closure Value} (cd : c.Same p.rel d) :
    Parallel.Silent A B p (Exec.enter c) (Exec.enter d) := by
  intro q own own' m n le alike
  simp only [Exec.enter, Bind.bind, EStateM.bind, Exec.get_apply]
  rcases room alike 2 with ⟨left, right⟩ | ⟨left, right⟩ | ⟨depths, refused⟩
  · rw [if_pos left, if_pos right]
    exact .error (le_refl q) .error alike rfl rfl
  · rw [if_neg left, if_neg right]
    exact bindThenBegin (alike.enterScope (cd.grow le).activation) (cd.grow le)
  · refine .refused depths (refused.imp (fun left => ?_) fun right => ?_)
    · rw [if_pos left]
      exact ⟨m, rfl, left⟩
    · rw [if_pos right]
      exact ⟨n, rfl, right⟩

theorem invoke_op (o : Operation Value) (origin : Origin) :
    Exec.invoke (.op o origin) = (do
      match ← Exec.operation o with
      | none => Pure.pure ()
      | some next => Exec.invoke next) := by
  funext m
  rw [Exec.invoke]
  simp only [Bind.bind, EStateM.bind]
  split
  · next ran =>
    rw [ran]
    rfl
  · next ran => rw [ran]
  · next ran => rw [ran]

theorem invoke_of_isPlain {v : Value} (free : v.isPlain = true) (m : Machine) :
    Exec.invoke v m = Exec.fail (.notInvocable v) m := by
  cases v <;> simp only [Exec.invoke] <;> cases free

/-- Invoking ends on both sides together. The induction is on the operands: an operation that hands
over to another value has taken one. -/
theorem invoke {v w : Value} (vw : v.Same p.rel w) :
    Parallel.Silent A B p (Exec.invoke v) (Exec.invoke w) := by
  intro q own own' m n le alike
  replace vw := vw.grow le
  clear le
  induction size : m.operands.count using Nat.strongRecOn generalizing q own own' m n v w with
  | _ size ih =>
    have other : EndAlike A B q (fun _ (_ _ : Unit) => True) m.registers n.registers
        (Exec.fail (.notInvocable v) m) (Exec.fail (.notInvocable w) n) := by
      rw [RuntimeError.notInvocable, RuntimeError.notInvocable, vw.culprit]
      exact fail _ q own own' m n (le_refl q) alike
    cases vw with
    | plain free =>
      rw [invoke_of_isPlain free, invoke_of_isPlain free]
      exact other
    | array => simpa only [Exec.invoke] using other
    | quote _ ab =>
      rw [Exec.invoke, Exec.invoke]
      exact pushFrame (.body ab) rfl rfl q own own' m n (le_refl q) alike
    | closure cd =>
      rw [Exec.invoke, Exec.invoke]
      exact enter cd q own own' m n (le_refl q) alike
    | @op o o' origin same =>
      rw [invoke_op, invoke_op]
      refine (operation same q own own' m n (le_refl q) alike).bind ?_
      intro q' above above' a b m' n' le handed ran _ alike' hm hn
      cases handed with
      | none => exact .ok (le_refl q') trivial alike' hm hn
      | some vw =>
        have taken := (Exec.tame_operation o _ _ _ ran).1
        have rest := ih _ (by omega) q' above above' m' n' alike' vw rfl
        rwa [hm, hn] at rest

theorem invokeOperation {o o' : Operation Value} (same : o.Same p.rel o') :
    Parallel.Silent A B p (Exec.invokeOperation o) (Exec.invokeOperation o') :=
  invoke (.op same)

/-! ### Values and tokens -/

theorem setOrigin (origin : Origin) :
    Parallel.Silent A B p (Exec.setOrigin origin) (Exec.setOrigin origin) := by
  refine update (fun _ => rfl) (fun _ => rfl) fun q own own' m n _ alike => ?_
  exact ⟨own, own', { alike with origin := rfl }⟩

theorem resolve (name : String) :
    Parallel.Silent A B p (Exec.resolve name) (Exec.resolve name) := by
  refine get.bind fun q m n _ alike => ?_
  obtain ⟨own, own', alike⟩ := alike
  have builtin : Option.Rel (Builtin.Same q.rel) (Bindings.get? m.registry name)
      (Bindings.get? n.registry name) := alike.registers.registry.get? name
  generalize Bindings.get? m.registry name = x at builtin
  generalize Bindings.get? n.registry name = y at builtin
  cases builtin with
  | some bc => exact invokeOperation (.builtin bc)
  | none =>
    have bound := alike.active.get? name
    simp only [Scopes.get?]
    generalize m.scopes.active.get? name = x at bound
    generalize n.scopes.active.get? name = y at bound
    cases bound with
    | none => exact fail _
    | @some v w vw =>
      cases vw with
      | plain free => cases v <;> first | exact push (.plain free) | cases free
      | array ij ab => exact push (.array ij ab)
      | quote ij ab => exact push (.quote ij ab)
      | closure cd => exact enter cd
      | op same => exact invokeOperation same

/-- Opening and closing a container that collects. -/
theorem countOpen (bracket : Bracket) (count : Nat → Nat)
    (free : bracket = .array ∨ B.codeOnly = none) :
    Parallel.Silent A B p (Exec.countOpen bracket count) (Exec.countOpen bracket count) := by
  cases bracket with
  | array => exact pure fun _ _ => trivial
  | quote =>
    have mixed := free.resolve_left nofun
    refine update (fun _ => rfl) (fun _ => rfl) fun q own own' m n _ alike => ?_
    exact ⟨own, own', { alike with
      openQuotes := congrArg count alike.openQuotes, codeOnly := by simp [mixed] }⟩
  | params =>
    have mixed := free.resolve_left nofun
    refine update (fun _ => rfl) (fun _ => rfl) fun q own own' m n _ alike => ?_
    exact ⟨own, own', { alike with
      openParams := congrArg count alike.openParams, codeOnly := by simp [mixed] }⟩

theorem openContainer (mixed : B.codeOnly = none) (bracket : Bracket) :
    Parallel.Silent A B p (Exec.openContainer bracket) (Exec.openContainer bracket) :=
  (countOpen bracket _ (.inr mixed)).bind fun _ _ _ _ _ => push (.plain rfl)

theorem popContainer (bracket : Bracket) :
    Parallel A B p (fun q => SameAll q.rel) (Exec.popContainer bracket)
      (Exec.popContainer bracket) := by
  intro q own own' m n _ alike
  have respects {v w : Value} (vw : v.Same q.rel w) :
      Exec.isMarker (Exec.openingMarker bracket) w =
        Exec.isMarker (Exec.openingMarker bracket) v := by
    cases vw <;> rfl
  have popped := alike.operands.popUntil respects
  simp only [Exec.popContainer]
  generalize m.operands.popUntil _ = x at popped
  generalize n.operands.popUntil _ = y at popped
  cases popped with
  | none => exact .error (le_refl q) .error alike rfl rfl
  | some found =>
    obtain ⟨ab, same, left, right⟩ := found
    exact .ok (le_refl q) ab (alike.setOperands same left right) rfl rfl

theorem closeContainer (bracket : Bracket) (free : bracket = .array ∨ B.codeOnly = none) :
    Parallel.Silent A B p (Exec.closeContainer bracket) (Exec.closeContainer bracket) := by
  refine (popContainer bracket).bind fun q a b _ ab => ?_
  refine (countOpen bracket _ free).bind fun q' _ _ le _ => ?_
  cases bracket with
  | array => exact pushArray (ab.grow le)
  | quote => exact fresh.bind fun _ _ _ le' ij => push (.quote ij (ab.grow (le_trans le le')))
  | params =>
    refine (check ab.ofValues).bind fun _ s t _ same => ?_
    subst same
    exact push (.plain rfl)

theorem value {v w : Value} (vw : v.Same p.rel w) :
    Parallel.Silent A B p (Exec.value v) (Exec.value w) := by
  cases vw with
  | plain free =>
    cases v with
    | marker marker =>
      cases marker with
      | arrayClose => exact closeContainer .array (.inl rfl)
      | _ => exact push (.plain free)
    | ref name origin => exact (setOrigin origin).bind fun _ _ _ _ _ => resolve name
    | _ => first | exact push (.plain free) | cases free
  | array ij ab => exact push (.array ij ab)
  | quote ij ab => exact push (.quote ij ab)
  | closure cd => exact push (.closure cd)
  | @op o o' origin same =>
    exact (setOrigin origin).bind fun _ _ _ le _ => invokeOperation (same.mono le.1)

theorem name (text : String) (origin : Origin) :
    Parallel.Silent A B p (Exec.name text origin) (Exec.name text origin) := by
  refine get.bind fun q m n _ alike => ?_
  obtain ⟨own, own', alike⟩ := alike
  have collecting : n.isCollecting = m.isCollecting := by
    rw [Machine.isCollecting, Machine.isCollecting, alike.openQuotes, alike.openParams]
  rw [collecting]
  by_cases collects : m.isCollecting = true
  · rw [if_pos collects, if_pos collects]
    have builtin : Option.Rel (Builtin.Same q.rel) (Bindings.get? m.registry text)
        (Bindings.get? n.registry text) := alike.registers.registry.get? text
    refine push ?_
    simp only [Exec.deferred]
    generalize Bindings.get? m.registry text = x at builtin
    generalize Bindings.get? n.registry text = y at builtin
    cases builtin with
    | none => exact .plain rfl
    | some bc => exact .op (.builtin bc)
  · rw [if_neg collects, if_neg collects]
    exact resolve text

theorem closing (mixed : B.codeOnly = none) (bracket : Bracket) :
    Parallel.Silent A B p (Exec.closing bracket) (Exec.closing bracket) := by
  refine get.bind fun q m n _ alike => ?_
  obtain ⟨own, own', alike⟩ := alike
  rw [alike.openQuotes]
  by_cases waits : bracket = .array ∧ 0 < m.openQuotes
  · rw [if_pos waits]
    exact push (.plain rfl)
  · rw [if_neg waits]
    exact closeContainer bracket (.inr mixed)

theorem token (mixed : B.codeOnly = none) (t : Token) :
    Parallel.Silent A B p (Exec.token t) (Exec.token t) := by
  refine (setOrigin t.origin).bind fun q _ _ _ _ => ?_
  cases t.lexeme with
  | opening bracket => exact openContainer mixed bracket
  | closing bracket => exact closing mixed bracket
  | name text => exact name text t.origin
  | _ => exact push (.plain rfl)

/-! ### Frames -/

section

variable {own own' : List Frame} {m n : Machine} {below below' : Stack Frame}

theorem checkReturns_same (alike : Alike A B p own own' m n) (signature : Signature) {floor : Nat}
    (le : A.items.length ≤ floor) :
    n.checkReturns signature floor = m.checkReturns signature floor := by
  have values := alike.operands.valuesFrom le
  simp only [Machine.checkReturns, alike.operands.count_eq,
    checkResults_same alike.active _ _ values]

theorem leaveCall {c d : Closure Value} {floor : Nat}
    (alike : Alike A B p (.call c floor :: own) (.call d floor :: own') m n)
    (left : below.toList = own ++ A.frames) (right : below'.toList = own' ++ B.frames) :
    EndAlike A B p (fun _ (_ _ : Unit) => True) m.registers n.registers
      (Exec.leaveCall c floor below m) (Exec.leaveCall d floor below' n) := by
  obtain ⟨fg, _⟩ := List.forall₂_cons.1 alike.same
  have protectedFrom : A.items.length ≤ floor :=
    Nat.le_trans alike.layered.2.base_le (alike.layered.1 floor rfl)
  have returned : EndAlike A B p (fun _ (_ _ : Unit) => True) m.registers n.registers
      (.ok () { m.release (.call c floor) with frames := below })
      (.ok () { n.release (.call d floor) with frames := below' }) :=
    .ok (le_refl p) trivial (alike.release left right) rfl rfl
  cases fg with
  | call cd =>
    simp only [Exec.leaveCall, Exec.checkLeft, cd.signature]
    cases c.signature with
    | none => exact returned
    | some signature =>
      simp only [Bind.bind, EStateM.bind, Exec.get_apply,
        checkReturns_same alike signature protectedFrom]
      cases m.checkReturns signature floor with
      | ok _ => exact returned
      | error e => exact .error (le_refl p) .error alike rfl rfl

theorem leaveUpdate {a b : List Value} {field : Field} {types types' : Scope} {floor : Nat}
    (alike : Alike A B p (.update a field types floor :: own) (.update b field types' floor :: own')
      m n) (left : below.toList = own ++ A.frames) (right : below'.toList = own' ++ B.frames) :
    EndAlike A B p (fun _ (_ _ : Unit) => True) m.registers n.registers
      (Exec.leaveUpdate a field types floor below m)
      (Exec.leaveUpdate b field types' floor below' n) := by
  obtain ⟨fg, _⟩ := List.forall₂_cons.1 alike.same
  have released := alike.release left right
  cases fg with
  | update ab same =>
    simp only [Exec.leaveUpdate, Bind.bind, EStateM.bind, Exec.get_apply,
      alike.operands.count_eq]
    by_cases one : m.operands.count - floor = 1
    · rw [if_pos one, if_pos one]
      have write : Parallel.Silent A B p (Exec.pop >>= Exec.writeField a field types)
          (Exec.pop >>= Exec.writeField b field types') :=
        pop.bind fun _ _ _ le vw => writeField (ab.grow le) field (same.grow le) vw
      exact write p own own' _ _ (le_refl p) released
    · rw [if_neg one, if_neg one]
      exact .error (le_refl p) .error released rfl rfl

theorem pushElement {s t : Source} (st : s.Same p.rel t) (index : Nat) (withIndex : Bool) :
    Parallel.Silent A B p (Exec.pushElement s index withIndex)
      (Exec.pushElement t index withIndex) := by
  refine (push (st.element index)).bind fun q _ _ _ _ => ?_
  cases withIndex with
  | true => exact push (.plain rfl)
  | false => exact pure fun _ _ => trivial

/-- The body of a loop, if it has one. -/
theorem runBody {a b : List Value} (ab : SameAll p.rel a b) :
    Parallel A B p (fun _ => Eq) (Exec.runBody a) (Exec.runBody b) := by
  unfold Exec.runBody
  rw [ab.isEmpty]
  by_cases empty : a.isEmpty = true
  · rw [if_pos empty, if_pos empty]
    exact pure fun _ _ => rfl
  · rw [if_neg empty, if_neg empty]
    exact (pushFrame (.body ab) rfl rfl).bind fun _ _ _ _ _ => pure fun _ _ => rfl

theorem checkCondition {v w : Value} {x y : List (Value × Value)}
    (alike : Alike A B p (.condCheck v x :: own) (.condCheck w y :: own') m n)
    (left : below.toList = own ++ A.frames) (right : below'.toList = own' ++ B.frames) :
    EndAlike A B p (fun _ (_ _ : Unit) => True) m.registers n.registers
      (Exec.checkCondition v x below m) (Exec.checkCondition w y below' n) := by
  obtain ⟨fg, _⟩ := List.forall₂_cons.1 alike.same
  have popped := alike.operands.pop
  simp only [Exec.checkCondition, Bind.bind, EStateM.bind, Exec.pop]
  generalize m.operands.pop = popM at popped
  generalize n.operands.pop = popN at popped
  cases popped with
  | error => exact .error (le_refl p) .error alike rfl rfl
  | @ok r s rest =>
    obtain ⟨rs, same, floors, floors'⟩ := rest
    have alike := alike.setOperands same floors floors'
    have released := alike.release left right
    have other : EndAlike A B p (fun _ (_ _ : Unit) => True) m.registers n.registers
        (.error (.error (.conditionMismatch r.1)) { m with operands := r.2 })
        (.error (.error (.conditionMismatch s.1)) { n with operands := s.2 }) := by
      rw [RuntimeError.conditionMismatch, RuntimeError.conditionMismatch, rs.culprit]
      exact .error (le_refl p) .error alike rfl rfl
    cases fg with
    | condCheck vw xy =>
      obtain ⟨v₁, m₁⟩ := r
      obtain ⟨v₂, m₂⟩ := s
      simp only at rs
      cases rs with
      | plain =>
        cases v₁ with
        | bool b =>
          cases b with
          | true => exact invoke vw p own own' _ _ (le_refl p) released
          | false =>
            have pushed := released.pushFrame (.condTest xy) rfl (fun _ held => by cases held)
              fun _ _ => rfl
            exact .ok (le_refl p) trivial pushed rfl rfl
        | _ => exact other
      | array => exact other
      | quote => exact other
      | closure => exact other
      | op => exact other

/-- Dealing with the topmost frame above the ground. -/
theorem advance {f g : Frame} (alike : Alike A B p (f :: own) (g :: own') m n)
    (left : below.toList = own ++ A.frames) (right : below'.toList = own' ++ B.frames) :
    EndAlike A B p (fun _ => Eq) m.registers n.registers (Exec.advance f below m)
      (Exec.advance g below' n) := by
  obtain ⟨fg, _⟩ := List.forall₂_cons.1 alike.same
  have released := alike.release left right
  -- Frames without a floor only take themselves away, or put another such frame in their place.
  cases fg with
  | @program tokens =>
    cases tokens with
    | nil => exact .ok (le_refl p) rfl released rfl rfl
    | cons t rest =>
      -- Where a program runs, things may be collected.
      have mixed : B.codeOnly = none := Option.eq_none_iff_forall_not_mem.2 fun r only => by
        cases (List.forall_mem_cons.1 (alike.codeOnly r only).2.2.2).1
      have pushed := released.pushFrame (f := .program rest) .program rfl
        (fun _ held => by cases held) (by simp [mixed])
      have run : Parallel A B p (fun _ => Eq) (do Exec.token t; Pure.pure Tick.checkpoint)
          (do Exec.token t; Pure.pure Tick.checkpoint) :=
        (token mixed t).bind fun _ _ _ _ _ => pure fun _ _ => rfl
      exact run p _ _ _ _ (le_refl p) pushed
  | body ab =>
    cases ab with
    | nil => exact .ok (le_refl p) rfl released rfl rfl
    | @cons v w a b vw ab =>
      have pushed := released.pushFrame (.body ab) rfl (fun _ held => by cases held) fun _ _ => rfl
      have run : Parallel A B p (fun _ => Eq) (do Exec.value v; Pure.pure Tick.checkpoint)
          (do Exec.value w; Pure.pure Tick.checkpoint) :=
        (value vw).bind fun _ _ _ _ _ => pure fun _ _ => rfl
      exact run p _ _ _ _ (le_refl p) pushed
  | call => exact (leaveCall alike left right).thenPure Tick.internal
  | loop ab => exact runBody ab p _ _ m n (le_refl p) alike
  | @iterate s t index withIndex a b st ab =>
    simp only [Exec.advance, st.length]
    by_cases more : index < s.length
    · rw [if_pos more, if_pos more]
      have next : (Frame.iterate s (index + 1) withIndex a).Same p.rel
          (.iterate t (index + 1) withIndex b) := .iterate st ab
      have pushed := released.pushFrame next rfl (fun _ held => by cases held) fun _ _ => rfl
      have run := (pushElement (A := A) (B := B) st index withIndex).bind
        fun q _ _ le _ => runBody (ab.grow le)
      exact run p _ _ _ _ (le_refl p) pushed
    · rw [if_neg more, if_neg more]
      exact .ok (le_refl p) rfl released rfl rfl
  | condTest xy =>
    cases xy with
    | nil => exact .ok (le_refl p) rfl released rfl rfl
    | @cons x y a b same rest =>
      have pushed := released.pushFrame (.condCheck same.2 rest) rfl (fun _ held => by cases held)
        fun _ _ => rfl
      have run : Parallel A B p (fun _ => Eq) (do Exec.invoke x.1; Pure.pure Tick.internal)
          (do Exec.invoke y.1; Pure.pure Tick.internal) :=
        (invoke same.1).bind fun _ _ _ _ _ => pure fun _ _ => rfl
      exact run p _ _ _ _ (le_refl p) pushed
  | condCheck => exact (checkCondition alike left right).thenPure Tick.internal
  | attempt => exact .ok (le_refl p) rfl released rfl rfl
  | update => exact (leaveUpdate alike left right).thenPure Tick.internal

end

end Catena.Parallel

namespace Catena

theorem Exec.invokeOperation_of_none {o : Operation Value} {m m' : Machine}
    (ran : Exec.operation o m = .ok none m') : Exec.invokeOperation o m = .ok () m' := by
  rw [Exec.invokeOperation, Parallel.invoke_op]
  simp only [Bind.bind, EStateM.bind, ran]
  rfl

theorem Exec.invokeOperation_of_error {o : Operation Value} {m m' : Machine} {signal : Signal}
    (ran : Exec.operation o m = .error signal m') :
    Exec.invokeOperation o m = .error signal m' := by
  rw [Exec.invokeOperation, Parallel.invoke_op]
  simp only [Bind.bind, EStateM.bind, ran]

theorem Exec.invokeOperation_of_some {o : Operation Value} {m m' : Machine} {next : Value}
    (ran : Exec.operation o m = .ok (some next) m') :
    Exec.invokeOperation o m = Exec.invoke next m' := by
  rw [Exec.invokeOperation, Parallel.invoke_op]
  simp only [Bind.bind, EStateM.bind, ran]

/-- An operation that hands over to nothing is just what it does. -/
theorem Exec.invokeOperation_of_plain {o : Operation Value} {x : Exec Unit}
    (plain : operation o = Exec.plain x) (m : Machine) : invokeOperation o m = x m := by
  simp only [invokeOperation, Parallel.invoke_op, plain, Exec.plain, Bind.bind, EStateM.bind]
  cases x m <;> rfl

/-- The operation of an operator. -/
def Operation.primitive (p : Primitive) : Operation Value := .builtin ⟨p.name, .primitive p⟩

/-- An attempt at a quotation. There has to be room for two frames. -/
theorem Exec.invokeOperation_attempt {m : Machine} {id : Nat} {code : List Value} {s : Operands}
    (popped : m.operands.pop = .ok (.quote id code, s)) (room : m.frames.size + 2 ≤ m.maxFrames) :
    Exec.invokeOperation (.primitive .attempt) m =
      .ok () { m with
        operands := s
        frames := (m.frames.push (.attempt s.count)).push (.body code) } := by
  let opened : Machine := { m with operands := s, frames := m.frames.push (.attempt s.count) }
  have first : Exec.pushFrame (.attempt s.count) { m with operands := s } = .ok () opened :=
    if_neg (Nat.not_le.2 (Nat.lt_of_succ_lt room))
  have second : Exec.pushFrame (.body code) opened =
      .ok () { opened with frames := opened.frames.push (.body code) } :=
    if_neg (Nat.not_le.2 room)
  have ran : Exec.operation (.primitive .attempt) m = .ok (some (.quote id code)) opened := by
    change Exec.attempt m = _
    simp only [Exec.attempt, Exec.popCallable, Exec.popAs, Exec.pop, Bind.bind, EStateM.bind,
      popped]
    change (do
      Exec.pushFrame (.attempt s.count)
      pure (some (.quote id code)) : Exec (Option Value)) { m with operands := s } = _
    simp only [Bind.bind, EStateM.bind, first]
    rfl
  rw [Exec.invokeOperation_of_some ran, Exec.invoke, second]

end Catena
