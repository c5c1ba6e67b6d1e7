import Catena.Proofs.Removal
import Catena.Proofs.Rendering

set_option autoImplicit false

/-!
A machine and its mirror image run the same code. What the one does in a turn the other does too,
unless the one is about to wait for an answer that the other has at once. Signals are dealt with at
the same frames as long as these are above the ground; below there may be nothing that could stop
them.
-/

namespace Catena.Translation

variable {T : Translation} {A B own : List Frame} {m n : Machine}

/-! ### Calls -/

namespace Renders

variable {α β : Type} {V : α → β}

theorem tryCatch {x : Exec α} {y : Exec β} {f : Signal → Exec α} {g : Signal → Exec β}
    (run : Renders T A B V x y) (handle : ∀ s, Renders T A B V (f s) (g (T.signal s))) :
    Renders T A B V (MonadExcept.tryCatch x f) (MonadExcept.tryCatch y g) := by
  intro own m n mirrors
  have ends := run own m n mirrors
  simp only [Exec.tryCatch_apply]
  generalize x m = x' at ends
  generalize y n = y' at ends
  cases ends with
  | ok mirrors => exact .ok mirrors
  | error mirrors => exact handle _ _ _ _ mirrors

theorem enterScope (scope : Scope) :
    Silent T A B (Exec.enterScope scope) (Exec.enterScope (T.scope scope)) := by
  refine update fun own m n mirrors => ⟨own, { mirrors with scopes := ?_ }⟩
  simp only [mirrors.scopes, Scopes.map_enter]

theorem leaveScope : Silent T A B Exec.leaveScope Exec.leaveScope := by
  refine update fun own m n mirrors => ⟨own, { mirrors with scopes := ?_ }⟩
  simp only [mirrors.scopes, Scopes.map_leave]

theorem beginBody (c : Closure Value) :
    Silent T A B (Exec.beginBody c) (Exec.beginBody (T.closure c)) := by
  refine update fun own m n mirrors =>
    ⟨.body c.body :: .call c m.operands.count :: own, { mirrors with
      frames := ?_, frames' := ?_, operands := ?_ }⟩
  · simp [mirrors.frames]
  · simp [mirrors.frames', mirrors.operands, frame, Closure.map]
  · simp only [mirrors.operands]
    rfl

theorem enter (c : Closure Value) : Silent T A B (Exec.enter c) (Exec.enter (T.closure c)) := by
  refine getThen fun own m n mirrors => ?_
  have room : n.maxFrames < n.frames.size + 2 ↔ m.maxFrames < m.frames.size + 2 := by
    rw [mirrors.maxFrames, mirrors.size]
  simp only [room]
  by_cases full : m.maxFrames < m.frames.size + 2
  · rw [if_pos full, if_pos full]
    exact fail _
  · rw [if_neg full, if_neg full, T.activation]
    have undone (signal : Signal) : Silent T A B
        (do Exec.leaveScope; MonadExcept.throw signal)
        (do Exec.leaveScope; MonadExcept.throw (T.signal signal)) :=
      leaveScope.bind fun _ => throw signal
    exact (enterScope _).bind fun _ => ((bindParameters c).tryCatch
      (g := fun signal => do Exec.leaveScope; MonadExcept.throw signal) undone).bind fun _ =>
        beginBody c

theorem setOrigin (origin : Origin) :
    Silent T A B (Exec.setOrigin origin) (Exec.setOrigin origin) :=
  update fun own _ _ mirrors => ⟨own, { mirrors with origin := rfl }⟩

theorem setFrames (rest : List Frame) {s t : Stack Frame} (left : s.toList = rest ++ A)
    (right : t.toList = rest.map T.frame ++ B) :
    Silent T A B (Exec.setFrames s) (Exec.setFrames t) :=
  update fun _ _ _ mirrors => ⟨rest, mirrors.setFrames rest left right⟩

/-! ### Containers -/

theorem countOpen (bracket : Bracket) (count : Nat → Nat) :
    Silent T A B (Exec.countOpen bracket count) (Exec.countOpen bracket count) := by
  cases bracket with
  | array => exact pure ()
  | quote =>
    exact update fun own _ _ mirrors =>
      ⟨own, { mirrors with openQuotes := congrArg count mirrors.openQuotes }⟩
  | params =>
    exact update fun own _ _ mirrors =>
      ⟨own, { mirrors with openParams := congrArg count mirrors.openParams }⟩

theorem openContainer (bracket : Bracket) :
    Silent T A B (Exec.openContainer bracket) (Exec.openContainer bracket) :=
  (countOpen bracket _).bind fun _ => pushPlain rfl

theorem popContainer (bracket : Bracket) :
    Renders T A B (List.map T.value) (Exec.popContainer bracket) (Exec.popContainer bracket) := by
  have respects (v : Value) : Exec.isMarker (Exec.openingMarker bracket) (T.value v) =
      Exec.isMarker (Exec.openingMarker bracket) v := by
    cases v <;> simp [Exec.isMarker]
  intro own m n mirrors
  simp only [Exec.popContainer, mirrors.operands, Operands.popUntil_map T.value _ respects]
  cases m.operands.popUntil (Exec.isMarker (Exec.openingMarker bracket)) with
  | none => exact .error (s := .error _) mirrors
  | some found => exact .ok { mirrors with operands := rfl }

theorem closeContainer (bracket : Bracket) :
    Silent T A B (Exec.closeContainer bracket) (Exec.closeContainer bracket) := by
  refine (popContainer bracket).bind fun items => (countOpen bracket _).bind fun _ => ?_
  cases bracket with
  | array => exact pushArray items
  | quote =>
    refine fresh.bind fun i => ?_
    have pushed := push (T := T) (A := A) (B := B) (.quote i items)
    rwa [T.value_quote] at pushed
  | params => exact (check (T.ofValues items)).bind fun _ => pushPlain rfl

theorem closing (bracket : Bracket) :
    Silent T A B (Exec.closing bracket) (Exec.closing bracket) := by
  refine getThen fun own m n mirrors => ?_
  rw [mirrors.openQuotes]
  by_cases waits : bracket = .array ∧ 0 < m.openQuotes
  · rw [if_pos waits]
    exact pushPlain rfl
  · rw [if_neg waits]
    exact closeContainer bracket

end Renders

/-! ### Running code -/

/-- How code ends on a machine and on its mirror image. It may end alike; or the one waits for an
answer, while the other has it and goes on. -/
inductive Followed {γ : Type} (T : Translation) (A B : List Frame) :
    EStateM.Result Signal Machine γ → EStateM.Result Signal Machine γ → Prop
  | alike {x y} : Rendered T A B id x y → Followed T A B x y
  | answered {own m n label r cancel c} : T.prompt = true → T.Mirrors A B own m n →
      Followed T A B (.error (.await ⟨label, .ready r, cancel⟩) m)
        ((do Exec.deliver (r.map T.value); Pure.pure c) n)

theorem Followed.rendered {γ : Type} {x y : EStateM.Result Signal Machine γ}
    (plain : T.prompt = false) (ends : Followed T A B x y) : Rendered T A B id x y := by
  cases ends with
  | alike ends => exact ends
  | answered prompt => exact absurd (plain.symm.trans prompt) Bool.false_ne_true

def Follows {γ : Type} (T : Translation) (A B : List Frame) (x y : Exec γ) : Prop :=
  ∀ own m n, T.Mirrors A B own m n → Followed T A B (x m) (y n)

section

variable {α β γ δ : Type} {V : α → β}

theorem Renders.follows {x y : Exec γ} (run : Renders T A B id x y) : Follows T A B x y :=
  fun own m n mirrors => .alike (run own m n mirrors)

theorem Renders.bindFollows {x : Exec α} {y : Exec β} {f : α → Exec γ} {g : β → Exec γ}
    (first : Renders T A B V x y) (next : ∀ a, Follows T A B (f a) (g (V a))) :
    Follows T A B (x >>= f) (y >>= g) := by
  intro own m n mirrors
  have ends := first own m n mirrors
  simp only [Bind.bind, EStateM.bind]
  generalize x m = x' at ends
  generalize y n = y' at ends
  cases ends with
  | ok mirrors => exact next _ _ _ _ mirrors
  | error mirrors => exact .alike (.error mirrors)

theorem Follows.getThen {f g : Machine → Exec γ}
    (next : ∀ own m n, T.Mirrors A B own m n → Follows T A B (f m) (g n)) :
    Follows T A B (MonadState.get >>= f) (MonadState.get >>= g) :=
  fun own m n mirrors => next own m n mirrors own m n mirrors

theorem Follows.thenPure {x y : Exec γ} (run : Follows T A B x y) (c : δ) :
    Follows T A B (do let _ ← x; Pure.pure c) (do let _ ← y; Pure.pure c) := by
  intro own m n mirrors
  have ends := run own m n mirrors
  simp only [Bind.bind, EStateM.bind]
  generalize x m = x' at ends
  generalize y n = y' at ends
  cases ends with
  | alike ends =>
    cases ends with
    | ok mirrors => exact .alike (.ok (a := c) mirrors)
    | error mirrors => exact .alike (.error mirrors)
  | @answered own m n label r cancel d prompt mirrors =>
    have answered : Followed T A B (.error (.await ⟨label, .ready r, cancel⟩) m)
        ((do Exec.deliver (r.map T.value); Pure.pure c) n) := .answered prompt mirrors
    cases r <;> exact answered

end

namespace Follows

/-- The induction is on the operands: an operation that hands over to another value has taken
one. -/
theorem invoke (v : Value) : Follows T A B (Exec.invoke v) (Exec.invoke (T.value v)) := by
  intro own m n mirrors
  induction size : m.operands.count using Nat.strongRecOn generalizing own m n v with
  | _ size ih =>
    have other : Followed T A B (Exec.fail (α := Unit) (.notInvocable v) m)
        (Exec.fail (.notInvocable (T.value v)) n) := by
      rw [RuntimeError.notInvocable, RuntimeError.notInvocable, T.culprit]
      exact .alike (Renders.fail _ own m n mirrors)
    cases v with
    | quote id code =>
      rw [T.value_quote, Exec.invoke, Exec.invoke]
      exact .alike (Renders.pushFrame (.body code) own m n mirrors)
    | closure c =>
      rw [T.value_closure, Exec.invoke, Exec.invoke]
      exact .alike (Renders.enter c own m n mirrors)
    | op o origin =>
      rw [T.value_op, Parallel.invoke_op, Parallel.invoke_op]
      rcases Renders.operation (T := T) (A := A) (B := B) o with next |
        ⟨r, prompt, name, label, cancel, rfl⟩
      · have ends := next own m n mirrors
        simp only [Bind.bind, EStateM.bind]
        generalize ran : Exec.operation o m = x at ends
        generalize Exec.operation (o.translate T.value T.prompt) n = y at ends
        cases ends with
        | error mirrors => exact .alike (.error mirrors)
        | @ok _ a m' n' mirrors =>
          cases a with
          | none => exact .alike (.ok (a := ()) mirrors)
          | some next =>
            have taken := (Exec.tame_operation o _ _ _ ran).1
            exact ih _ (by omega) next _ _ _ mirrors rfl
      · have answered : Followed T A B (.error (.await ⟨label, .ready r, cancel⟩) m)
            ((do Exec.deliver (r.map T.value); Pure.pure ()) n) := .answered prompt mirrors
        simp only [Operation.translate, Builtin.translate, BuiltinAction.translate, prompt]
        cases r <;> exact answered
    | array id items => simpa only [T.value_array, Exec.invoke] using other
    | _ =>
      rw [T.value_plain rfl] at other ⊢
      rwa [Parallel.invoke_of_isPlain rfl, Parallel.invoke_of_isPlain rfl]

theorem invokeOperation (o : Operation Value) :
    Follows T A B (Exec.invokeOperation o)
      (Exec.invokeOperation (o.translate T.value T.prompt)) := by
  have ran := invoke (T := T) (A := A) (B := B) (.op o .none)
  rwa [T.value_op] at ran

theorem resolve (name : String) :
    Follows T A B (Exec.resolve name) (Exec.resolve name) := by
  refine getThen fun own m n mirrors => ?_
  have builtin : Bindings.get? n.registry name =
      (Bindings.get? m.registry name).map (Builtin.translate T.value T.prompt) := by
    rw [mirrors.registry, Bindings.get?_map]
  have bound : n.scopes.get? name = (m.scopes.get? name).map T.value := by
    simp only [mirrors.scopes, Scopes.get?, Scopes.map, Bindings.get?_map]
  simp only [builtin, bound]
  cases Bindings.get? m.registry name with
  | some b => exact invokeOperation (.builtin b)
  | none =>
    cases m.scopes.get? name with
    | none => exact (Renders.fail _).follows
    | some v =>
      have pushed := (Renders.push (T := T) (A := A) (B := B) v).follows
      simp only [Option.map_none, Option.map_some]
      cases v with
      | closure c =>
        rw [T.value_closure]
        exact (Renders.enter c).follows
      | op o origin =>
        rw [T.value_op]
        exact invokeOperation o
      | _ => simpa using pushed

theorem value (v : Value) : Follows T A B (Exec.value v) (Exec.value (T.value v)) := by
  have pushed := (Renders.push (T := T) (A := A) (B := B) v).follows
  cases v with
  | marker marker =>
    rw [T.value_marker] at pushed ⊢
    cases marker with
    | arrayClose => exact (Renders.closeContainer .array).follows
    | _ => exact pushed
  | ref name origin =>
    rw [T.value_ref]
    exact (Renders.setOrigin origin).bindFollows fun _ => resolve name
  | op o origin =>
    rw [T.value_op]
    exact (Renders.setOrigin origin).bindFollows fun _ => invokeOperation o
  | _ => simpa [Exec.value] using pushed

theorem name (text : String) (origin : Origin) :
    Follows T A B (Exec.name text origin) (Exec.name text origin) := by
  refine getThen fun own m n mirrors => ?_
  rw [mirrors.isCollecting]
  by_cases collects : m.isCollecting = true
  · rw [if_pos collects, if_pos collects]
    have deferred : Exec.deferred n text origin = T.value (Exec.deferred m text origin) := by
      simp only [Exec.deferred, mirrors.registry, Bindings.get?_map]
      cases Bindings.get? m.registry text with
      | none => exact (T.value_ref _ _).symm
      | some b => exact (T.value_op (.builtin b) origin).symm
    rw [deferred]
    exact (Renders.push _).follows
  · rw [if_neg collects, if_neg collects]
    exact resolve text

theorem token (t : Token) : Follows T A B (Exec.token t) (Exec.token t) := by
  refine (Renders.setOrigin t.origin).bindFollows fun _ => ?_
  cases t.lexeme with
  | opening bracket => exact (Renders.openContainer bracket).follows
  | closing bracket => exact (Renders.closing bracket).follows
  | name text => exact name text t.origin
  | _ => exact (Renders.pushPlain rfl).follows

end Follows

/-! ### Frames -/

namespace Renders

theorem checkLeft (c : Closure Value) (floor : Nat) :
    Silent T A B (Exec.checkLeft c floor) (Exec.checkLeft (T.closure c) floor) := by
  simp only [Exec.checkLeft, Closure.map]
  cases c.signature with
  | none => exact pure ()
  | some signature =>
    refine getThen fun own m n mirrors => check ?_
    simp only [Machine.checkReturns, mirrors.operands, mirrors.scopes, Operands.count_map,
      Operands.valuesFrom_map]
    cases signature.returns with
    | none => rfl
    | some types => simp only [Scopes.map, T.checkResults]

theorem allow {rest : List Frame} {s t : Stack Frame} (left : s.toList = rest ++ A)
    (right : t.toList = rest.map T.frame ++ B) (mirrors : T.Mirrors A B own m n) (floor : Nat) :
    T.Mirrors A B rest { m with frames := s, operands := m.operands.allow floor }
      { n with frames := t, operands := n.operands.allow floor } :=
  { mirrors with
    frames := left
    frames' := right
    operands := by rw [mirrors.operands]; rfl }

theorem leaveCall {below below' : Stack Frame} (left : below.toList = own ++ A)
    (right : below'.toList = own.map T.frame ++ B) (c : Closure Value) (floor : Nat) :
    Silent T A B (Exec.leaveCall c floor below) (Exec.leaveCall (T.closure c) floor below') := by
  refine (checkLeft c floor).bind fun _ => update fun _ m n mirrors => ?_
  refine ⟨own, { allow left right mirrors floor with scopes := ?_ }⟩
  simp only [mirrors.scopes, Scopes.map_leave]

theorem leaveUpdate {below below' : Stack Frame} (left : below.toList = own ++ A)
    (right : below'.toList = own.map T.frame ++ B) (items : List Value) (field : Field)
    (types : Scope) (floor : Nat) :
    Silent T A B (Exec.leaveUpdate items field types floor below)
      (Exec.leaveUpdate (items.map T.value) field (T.scope types) floor below') := by
  refine getThen fun _ m n mirrors => ?_
  have released : Silent T A B
      (MonadStateOf.set { m with frames := below, operands := m.operands.allow floor } : Exec Unit)
      (MonadStateOf.set { n with frames := below', operands := n.operands.allow floor }) :=
    fun _ _ _ _ => .ok (a := ()) (allow left right mirrors floor)
  have count : n.operands.count = m.operands.count := by rw [mirrors.operands, Operands.count_map]
  refine released.bind fun _ => ?_
  simp only [count]
  by_cases one : m.operands.count - floor = 1
  · rw [if_pos one, if_pos one]
    exact pop.bind fun v => writeField items field types v
  · rw [if_neg one, if_neg one]
    exact fail _

theorem pushElement (source : Source) (index : Nat) (withIndex : Bool) :
    Silent T A B (Exec.pushElement source index withIndex)
      (Exec.pushElement (T.source source) index withIndex) := by
  simp only [Exec.pushElement, T.element]
  refine (push _).bind fun _ => ?_
  cases withIndex with
  | true => exact pushPlain rfl
  | false => exact pure ()

/-- The body of a loop, if it has one. -/
theorem runBody (body : List Value) :
    Renders T A B id (Exec.runBody body) (Exec.runBody (body.map T.value)) := by
  unfold Exec.runBody
  rw [List.isEmpty_map]
  by_cases empty : body.isEmpty = true
  · rw [if_pos empty, if_pos empty]
    exact pure Tick.checkpoint
  · rw [if_neg empty, if_neg empty]
    exact (pushFrame (.body body)).bind fun _ => pure Tick.internal

end Renders

namespace Follows

theorem checkCondition {below below' : Stack Frame} (left : below.toList = own ++ A)
    (right : below'.toList = own.map T.frame ++ B) (action : Value)
    (rest : List (Value × Value)) :
    Follows T A B (Exec.checkCondition action rest below)
      (Exec.checkCondition (T.value action) (rest.map T.pair) below') := by
  refine Renders.pop.bindFollows fun v => ?_
  have other : Follows T A B (Exec.fail (α := Unit) (.conditionMismatch v))
      (Exec.fail (.conditionMismatch (T.value v))) := by
    rw [RuntimeError.conditionMismatch, RuntimeError.conditionMismatch, T.culprit]
    exact (Renders.fail _).follows
  cases v with
  | bool holds =>
    rw [T.value_bool]
    cases holds with
    | true => exact (Renders.setFrames own left right).bindFollows fun _ => invoke action
    | false =>
      refine (Renders.setFrames (.condTest rest :: own) ?_ ?_).follows
      · simp [left]
      · simp [right, frame]
  | _ => simpa using other

/-- Dealing with a frame above the ground. -/
theorem advance {below below' : Stack Frame} (left : below.toList = own ++ A)
    (right : below'.toList = own.map T.frame ++ B) (f : Frame) :
    Follows T A B (Exec.advance f below) (Exec.advance (T.frame f) below') := by
  have gone : Follows T A B (do Exec.setFrames below; Pure.pure Tick.internal)
      (do Exec.setFrames below'; Pure.pure Tick.internal) :=
    (Renders.setFrames own left right).follows.thenPure Tick.internal
  have replaced (g : Frame) : Silent T A B (Exec.setFrames (below.push g))
      (Exec.setFrames (below'.push (T.frame g))) :=
    Renders.setFrames (g :: own) (by simp [left]) (by simp [right])
  cases f with
  | program tokens =>
    cases tokens with
    | nil => exact gone
    | cons t rest =>
      exact (replaced (.program rest)).bindFollows fun _ => (token t).thenPure Tick.checkpoint
  | body code =>
    cases code with
    | nil => exact gone
    | cons v rest =>
      exact (replaced (.body rest)).bindFollows fun _ => (value v).thenPure Tick.checkpoint
  | call c floor => exact (Renders.leaveCall left right c floor).follows.thenPure Tick.internal
  | loop body => exact (Renders.runBody body).follows
  | iterate source index withIndex body =>
    simp only [frame, Exec.advance, T.length_source]
    by_cases more : index < source.length
    · rw [if_pos more, if_pos more]
      refine (replaced (.iterate source (index + 1) withIndex body)).bindFollows fun _ => ?_
      exact ((Renders.pushElement source index withIndex).bind fun _ =>
        Renders.runBody body).follows
    · rw [if_neg more, if_neg more]
      exact gone
  | condTest pairs =>
    cases pairs with
    | nil => exact gone
    | cons x rest =>
      exact (replaced (.condCheck x.2 rest)).bindFollows fun _ =>
        (invoke x.1).thenPure Tick.internal
  | condCheck action rest =>
    exact (checkCondition left right action rest).thenPure Tick.internal
  | attempt height => exact gone
  | update items field types floor =>
    exact (Renders.leaveUpdate left right items field types floor).follows.thenPure Tick.internal

end Follows

/-! ### Signals -/

theorem attemptHeight? (f : Frame) : (T.frame f).attemptHeight? = f.attemptHeight? := by
  cases f <;> rfl

theorem callFloor? (f : Frame) : (T.frame f).callFloor? = f.callFloor? := by
  cases f <;> rfl

theorem loopEdge? (f : Frame) : (T.frame f).loopEdge? = f.loopEdge? := by
  cases f <;> rfl

/-- Grounds that signals cannot tell apart: there is nothing, or just a program. -/
inductive Bare : List Frame → List Frame → Prop
  | nothing : Bare [] []
  | program (rest rest' : List Token) : Bare [.program rest] [.program rest']

namespace Mirrors

section

variable (mirrors : T.Mirrors A B own m n)
include mirrors

theorem checkpoint : T.Mirrors A B own m.checkpoint.2 n.checkpoint.2 :=
  { mirrors with checkpoints := T.counts_succ mirrors.checkpoints }

theorem calm : T.Mirrors A B own { m with control := .none } { n with control := .none } :=
  { mirrors with control := rfl }

theorem release (f : Frame) : T.Mirrors A B own (m.release f) (n.release (T.frame f)) := by
  cases f with
  | call c floor =>
    exact { Renders.allow mirrors.frames mirrors.frames' mirrors floor with
      scopes := (congrArg Scopes.leave mirrors.scopes).trans (m.scopes.map_leave T.value).symm }
  | update items field types floor =>
    exact Renders.allow mirrors.frames mirrors.frames' mirrors floor
  | _ => exact mirrors

theorem releaseAll (frames : List Frame) :
    T.Mirrors A B own (m.releaseAll frames) (n.releaseAll (frames.map T.frame)) := by
  induction frames generalizing m n with
  | nil => exact mirrors
  | cons f frames ih => exact ih (mirrors.release f)

end

/-- A frame that a signal stops at is found at the same place. -/
theorem split {β : Type} {read? : Frame → Option β} (respects : ∀ f, read? (T.frame f) = read? f)
    {above rest : List Frame} {f : Frame} {b : β} (mirrors : T.Mirrors A B (above ++ f :: rest) m n)
    (passed : ∀ x ∈ above, read? x = none) (found : read? f = some b) :
    ∃ below below', m.frames.split? read? = some (above, b, below) ∧
      n.frames.split? read? = some (above.map T.frame, b, below') ∧
      below.toList = rest ++ A ∧ below'.toList = rest.map T.frame ++ B := by
  have frames := mirrors.frames
  have frames' := mirrors.frames'
  rw [List.append_assoc] at frames
  rw [List.map_append, List.append_assoc] at frames'
  have passed' : ∀ x ∈ above.map T.frame, read? x = none := by
    intro x member
    obtain ⟨y, inside, rfl⟩ := List.mem_map.1 member
    rw [respects, passed y inside]
  obtain ⟨below, split, left⟩ := Stack.split?_of_append frames passed found
  obtain ⟨below', split', right⟩ :=
    Stack.split?_of_append frames' passed' ((respects f).trans found)
  exact ⟨below, below', split, split', left, right⟩

/-- A signal that goes past all frames above a bare ground. -/
theorem passes {β : Type} {read? : Frame → Option β} (respects : ∀ f, read? (T.frame f) = read? f)
    (mirrors : T.Mirrors A B own m n) (passed : ∀ x ∈ own, read? x = none)
    (free : (∀ x ∈ A, read? x = none) ∧ ∀ x ∈ B, read? x = none) :
    (∀ x ∈ m.frames.toList, read? x = none) ∧ ∀ x ∈ n.frames.toList, read? x = none := by
  rw [mirrors.frames, mirrors.frames']
  refine ⟨List.forall_mem_append.2 ⟨passed, free.1⟩, List.forall_mem_append.2 ⟨?_, free.2⟩⟩
  intro x member
  obtain ⟨y, inside, rfl⟩ := List.mem_map.1 member
  rw [respects, passed y inside]

end Mirrors

/-- How a part of a step ends on a machine and on its mirror image: alike, or with an error that
goes past all frames above the ground. -/
inductive Turned (T : Translation) (A B : List Frame) :
    Option Step × Machine → Option Step × Machine → Prop
  | both {own s m n} : T.Mirrors A B own m n → Turned T A B (s, m) (s, n)
  | escapes {own e m n} : T.Mirrors A B own m n → (∀ f ∈ own, f.attemptHeight? = none) →
      Turned T A B (Machine.ending (m.raiseError e)) (Machine.ending (n.raiseError e))

namespace Mirrors

section

variable (mirrors : T.Mirrors A B own m n)
include mirrors

theorem raiseError (e : LocatedError) :
    Turned T A B (Machine.ending (m.raiseError e)) (Machine.ending (n.raiseError e)) := by
  rcases exists_split Frame.attemptHeight? own with passed |
    ⟨above, f, rest, height, rfl, passed, found⟩
  · exact .escapes mirrors passed
  · obtain ⟨below, below', split, split', left, right⟩ :=
      mirrors.split attemptHeight? passed found
    have released := (mirrors.releaseAll above).setFrames rest left right
    simp only [Machine.raiseError, split, split']
    refine .both (Mirrors.checkpoint { released with operands := ?_ })
    simp only [(mirrors.releaseAll above).operands, Operands.map_push, Operands.map_truncate,
      T.value_error]

theorem interrupt (signal : Signal) :
    Turned T A B (Machine.ending (m.interrupt signal))
      (Machine.ending (n.interrupt (T.signal signal))) := by
  cases signal with
  | error e =>
    simp only [Machine.interrupt, Machine.fail, Translation.signal, mirrors.locate]
    exact mirrors.raiseError _
  | «break» => exact .both (Mirrors.checkpoint { mirrors with control := rfl })
  | tailCall c => exact .both (Mirrors.checkpoint { mirrors with control := rfl })
  | await a => exact .both (Mirrors.checkpoint { mirrors with control := rfl, pending := rfl })

theorem leaveLoop (stops : Bare A B ∨ ¬ ∀ f ∈ own, f.loopEdge? = none) :
    Rendered T A B id (Exec.leaveLoop m) (Exec.leaveLoop n) := by
  rcases exists_split Frame.loopEdge? own with passed |
    ⟨above, f, rest, isLoop, rfl, passed, found⟩
  · cases stops.resolve_right (not_not.2 passed) with
    | nothing =>
      have all := mirrors.passes loopEdge? passed ⟨List.forall_mem_nil _, List.forall_mem_nil _⟩
      rw [Exec.leaveLoop_of_passed all.1, Exec.leaveLoop_of_passed all.2]
      have released := mirrors.releaseAll own
      rw [mirrors.frames, mirrors.frames', List.append_nil, List.append_nil]
      exact .error (s := .error _) (released.setFrames [] rfl rfl)
    | program rest rest' =>
      have passed' : ∀ x ∈ own.map T.frame, x.loopEdge? = none := by
        intro x member
        obtain ⟨y, inside, rfl⟩ := List.mem_map.1 member
        rw [loopEdge?, passed y inside]
      obtain ⟨below, split, left⟩ := Stack.split?_of_append mirrors.frames passed (by rfl)
      obtain ⟨below', split', right⟩ := Stack.split?_of_append mirrors.frames' passed' (by rfl)
      simp only [Exec.leaveLoop, split, split']
      refine .error (s := .error _) ((mirrors.releaseAll own).setFrames [] ?_ ?_)
      · simp [mirrors.frames]
      · simp [mirrors.frames']
  · obtain ⟨below, below', split, split', left, right⟩ := mirrors.split loopEdge? passed found
    have released := mirrors.releaseAll above
    simp only [Exec.leaveLoop, split, split']
    cases isLoop with
    | true => exact .ok (a := ()) (released.setFrames rest left right)
    | false =>
      refine .error (s := .error _) (released.setFrames (f :: rest) ?_ ?_)
      · simp [mirrors.frames]
      · simp [mirrors.frames']

theorem replaceCall (c : Closure Value) (stops : Bare A B ∨ ¬ ∀ f ∈ own, f.callFloor? = none) :
    Rendered T A B id (Exec.replaceCall c m) (Exec.replaceCall (T.closure c) n) := by
  rcases exists_split Frame.callFloor? own with passed |
    ⟨above, f, rest, floor, rfl, passed, found⟩
  · have free : (∀ x ∈ A, x.callFloor? = none) ∧ ∀ x ∈ B, x.callFloor? = none := by
      cases stops.resolve_right (not_not.2 passed) with
      | nothing => exact ⟨List.forall_mem_nil _, List.forall_mem_nil _⟩
      | program => exact ⟨List.forall_mem_singleton.2 rfl, List.forall_mem_singleton.2 rfl⟩
    have all := mirrors.passes callFloor? passed free
    rw [Exec.replaceCall_of_passed all.1, Exec.replaceCall_of_passed all.2]
    exact .error (s := .error _) mirrors
  · obtain ⟨below, below', split, split', left, right⟩ := mirrors.split callFloor? passed found
    rw [Exec.replaceCall_eq split, Exec.replaceCall_eq split']
    have bound : Silent T A B
        (do
          Exec.bindParameters c
          Exec.setFrames ((below.push (.call c floor)).push (.body c.body)))
        (do
          Exec.bindParameters (T.closure c)
          Exec.setFrames ((below'.push (.call (T.closure c) floor)).push
            (.body (T.closure c).body))) := by
      refine (Renders.bindParameters c).bind fun _ =>
        Renders.setFrames (.body c.body :: .call c floor :: rest) ?_ ?_
      · simp [left]
      · simp [right, frame, Closure.map]
    refine bound (f :: rest) _ _ { mirrors.releaseAll above with
      frames := ?_, frames' := ?_, scopes := ?_ }
    · simp [mirrors.frames]
    · simp [mirrors.frames']
    · simp only [(mirrors.releaseAll above).scopes, T.activation, Scopes.map_enter,
        Scopes.map_leave]

end

/-! ### Turns -/

theorem afterAdvance {x y : EStateM.Result Signal Machine Tick} (ends : Rendered T A B id x y) :
    Turned T A B (Machine.afterAdvance x) (Machine.afterAdvance y) := by
  cases ends with
  | error mirrors => exact mirrors.interrupt _
  | @ok _ tick _ _ mirrors =>
    cases tick with
    | internal => exact .both mirrors
    | checkpoint => exact .both mirrors.checkpoint

theorem afterSignal {x y : EStateM.Result Signal Machine Unit} (ends : Rendered T A B id x y) :
    Turned T A B (Machine.afterSignal x) (Machine.afterSignal y) := by
  cases ends with
  | error mirrors => exact mirrors.interrupt _
  | ok mirrors => exact .both mirrors

/-- A frame above the ground is dealt with. -/
theorem advance {f : Frame} (mirrors : T.Mirrors A B (f :: own) m n) :
    ∃ below below', m.frames.pop? = some (f, below) ∧ n.frames.pop? = some (T.frame f, below') ∧
      Followed T A B (Exec.advance f below m) (Exec.advance (T.frame f) below' n) := by
  have left : (m.frames.drop 1).toList = own ++ A := by simp [mirrors.frames]
  have right : (n.frames.drop 1).toList = own.map T.frame ++ B := by simp [mirrors.frames']
  refine ⟨m.frames.drop 1, n.frames.drop 1, ?_, ?_, Follows.advance left right f _ _ _ mirrors⟩
  · rw [Stack.pop?_eq_some_iff, left, mirrors.frames]
    rfl
  · rw [Stack.pop?_eq_some_iff, right, mirrors.frames']
    rfl

theorem turn {f : Frame} (plain : T.prompt = false) (mirrors : T.Mirrors A B (f :: own) m n) :
    Turned T A B m.turn n.turn := by
  obtain ⟨below, below', top, top', ends⟩ := mirrors.advance
  simp only [Machine.turn, top, top']
  exact afterAdvance (ends.rendered plain)

/-- What the step before has left, as long as it stops at a frame above the ground. -/
theorem heed (mirrors : T.Mirrors A B own m n)
    (loops : m.control = .break → Bare A B ∨ ¬ ∀ f ∈ own, f.loopEdge? = none)
    (calls : ∀ c, m.control = .tailCall c → Bare A B ∨ ¬ ∀ f ∈ own, f.callFloor? = none) :
    Turned T A B m.heed n.heed := by
  have control := mirrors.control
  simp only [Machine.heed]
  cases left : m.control with
  | none =>
    rw [left] at control
    simp only [control, Translation.control]
    exact .both mirrors
  | suspend =>
    rw [left] at control
    simp only [control, Translation.control]
    exact .both mirrors
  | throw e =>
    rw [left] at control
    simp only [control, Translation.control]
    exact mirrors.calm.raiseError e
  | «break» =>
    rw [left] at control
    simp only [control, Translation.control]
    exact afterSignal (mirrors.calm.leaveLoop (loops left))
  | tailCall c =>
    rw [left] at control
    simp only [control, Translation.control]
    exact afterSignal (mirrors.calm.replaceCall c (calls c left))

theorem answer (mirrors : T.Mirrors A B own m n) (r : Reply Value) :
    T.Mirrors A B own (m.answer r) (n.answer (r.map T.value)) := by
  cases r with
  | value v =>
    refine { mirrors with operands := ?_, control := rfl, pending := rfl }
    exact (congrArg (Operands.push · (T.value v)) mirrors.operands).trans
      (m.operands.map_push T.value v).symm
  | nothing => exact { mirrors with control := rfl, pending := rfl }
  | failure e =>
    refine { mirrors with control := ?_, pending := rfl }
    exact congrArg Control.throw (mirrors.locate e)

end Mirrors

end Catena.Translation
