import Catena.Activation
import Catena.Proofs.Translation

set_option autoImplicit false

/-!
A machine and its mirror image. Above some frames that they need not share, the one holds what the
other holds as a translation reads it. Actions that are rendered by others end alike on the two, and
rendering is kept by sequencing, so it is shown of an operation by following its text.
-/

namespace Catena

/-! ### The parts of a machine -/

section

variable {α β : Type} (f : α → β)

def Stack.map (s : Stack α) : Stack β := ⟨s.toList.map f, s.size, by simp [s.length_eq]⟩

@[simp] theorem Stack.toList_map (s : Stack α) : (s.map f).toList = s.toList.map f := rfl

@[simp] theorem Stack.size_map (s : Stack α) : (s.map f).size = s.size := rfl

@[simp] theorem Stack.map_push (s : Stack α) (a : α) : (s.push a).map f = (s.map f).push (f a) :=
  rfl

@[simp] theorem Stack.map_drop (s : Stack α) (n : Nat) : (s.drop n).map f = (s.map f).drop n :=
  ext (by simp)

theorem Stack.pop?_map (s : Stack α) :
    (s.map f).pop? = s.pop?.map fun found => (f found.1, found.2.map f) := by
  cases top : s.pop? with
  | none =>
    rw [pop?_eq_none_iff] at top
    exact pop?_eq_none_iff.2 (by simp [top])
  | some found =>
    rw [pop?_eq_some_iff] at top
    exact pop?_eq_some_iff.2 (by simp [top])

end

namespace Operands

variable (f : Value → Value) (s : Operands)

def map : Operands := ⟨s.items.map f, s.floors⟩

@[simp] theorem floors_map : (s.map f).floors = s.floors := rfl

@[simp] theorem count_map : (s.map f).count = s.count := rfl

@[simp] theorem floor_map : (s.map f).floor = s.floor := rfl

@[simp] theorem accessible_map : (s.map f).accessible = s.accessible := by
  rw [accessible, accessible, count_map, floor_map]

@[simp] theorem missing_map : (s.map f).missing = s.missing := by
  rw [missing, missing, count_map]

theorem map_push (v : Value) : (s.push v).map f = (s.map f).push (f v) := rfl

theorem map_truncate (height : Nat) : (s.truncate height).map f = (s.map f).truncate height := by
  simp only [map, truncate, Stack.keep, Stack.map_drop]
  rfl

theorem pop_map : (s.map f).pop = s.pop.map fun found => (f found.1, found.2.map f) := by
  simp only [pop, accessible_map, missing_map]
  by_cases empty : s.accessible = 0
  · rw [if_pos empty, if_pos empty]
    rfl
  · rw [if_neg empty, if_neg empty]
    simp only [map, Stack.pop?_map]
    cases s.items.pop? <;> rfl

theorem peek_map (offset : Nat) : (s.map f).peek offset = (s.peek offset).map f := by
  simp only [peek, accessible_map, missing_map]
  by_cases seen : offset < s.accessible
  · rw [if_pos seen, if_pos seen]
    simp only [map, Stack.toList_map, List.getElem?_map]
    cases s.items.toList[offset]? <;> rfl
  · rw [if_neg seen, if_neg seen]
    rfl

theorem topIs_map {wanted : Value → Bool} (respects : ∀ v, wanted (f v) = wanted v) :
    (s.map f).topIs wanted = s.topIs wanted := by
  simp only [topIs, peek_map]
  cases s.peek 0 with
  | ok v => exact respects v
  | error e => rfl

theorem popUntil_map {wanted : Value → Bool} (respects : ∀ v, wanted (f v) = wanted v) :
    (s.map f).popUntil wanted =
      (s.popUntil wanted).map fun found => (found.1.map f, found.2.map f) := by
  have above : ((s.map f).items.toList.take s.accessible).takeWhile (!wanted ·) =
      ((s.items.toList.take s.accessible).takeWhile (!wanted ·)).map f := by
    simp only [map, Stack.toList_map, ← List.map_take, List.takeWhile_map]
    simp [Function.comp_def, respects]
  simp only [popUntil, accessible_map, above, List.length_map]
  by_cases found : ((s.items.toList.take s.accessible).takeWhile (!wanted ·)).length < s.accessible
  · rw [if_pos found, if_pos found]
    simp [map, List.map_reverse]
  · rw [if_neg found, if_neg found]
    rfl

theorem valuesFrom_map (height : Nat) :
    (s.map f).valuesFrom height = (s.valuesFrom height).map f := by
  simp [valuesFrom, Stack.above, map, List.map_reverse, List.map_take]

end Operands

def Scopes.map (f : Value → Value) (s : Scopes) : Scopes :=
  ⟨s.active.map f, s.saved.map (Bindings.map f)⟩

theorem Scopes.map_leave (f : Value → Value) (s : Scopes) : s.leave.map f = (s.map f).leave := by
  obtain ⟨active, saved⟩ := s
  cases saved <;> rfl

theorem Scopes.map_enter (f : Value → Value) (s : Scopes) (scope : Scope) :
    (s.enter scope).map f = (s.map f).enter (scope.map f) := rfl

theorem Scopes.map_put (f : Value → Value) (s : Scopes) (name : String) (v : Value) :
    (s.put name v).map f = (s.map f).put name (f v) := by
  simp only [put, map, Bindings.map_insert]

@[simp] theorem Operands.map_id (s : Operands) : s.map (fun v => v) = s := by
  simp [Operands.map, Stack.map]

@[simp] theorem Scopes.map_id (s : Scopes) : s.map (fun v => v) = s := by
  simp [Scopes.map, show Bindings.map (fun v : Value => v) = id from funext Bindings.map_id]

namespace Translation

variable (T : Translation)

def frame : Frame → Frame
  | .program rest => .program rest
  | .body rest => .body (rest.map T.value)
  | .call c floor => .call (T.closure c) floor
  | .loop body => .loop (body.map T.value)
  | .iterate source index withIndex body =>
    .iterate (T.source source) index withIndex (body.map T.value)
  | .condTest pairs => .condTest (pairs.map T.pair)
  | .condCheck action rest => .condCheck (T.value action) (rest.map T.pair)
  | .attempt height => .attempt height
  | .update fields field types floor =>
    .update (fields.map T.value) field (T.scope types) floor

def signal : Signal → Signal
  | .break => .break
  | .tailCall target => .tailCall (T.closure target)
  | .error e => .error e
  | .await pending => .await (pending.map T.value)

def control : Control → Control
  | .none => .none
  | .break => .break
  | .tailCall target => .tailCall (T.closure target)
  | .throw e => .throw e
  | .suspend => .suspend

def report (r : Report) : Report :=
  { r with
    failures := r.failures.map fun failure =>
      { failure with operands := failure.operands.map T.value } }

abbrev registry (r : Registry) : Registry := r.map (Builtin.translate T.value T.prompt)

/-- The second machine is the first as `T` reads it, but for frames at the bottom: there the first
has `A` where the second has as many frames `B`. -/
structure Mirrors (A B own : List Frame) (m n : Machine) : Prop where
  depth : B.length = A.length
  frames : m.frames.toList = own ++ A
  frames' : n.frames.toList = own.map T.frame ++ B
  registry : n.registry = T.registry m.registry
  operands : n.operands = m.operands.map T.value
  scopes : n.scopes = m.scopes.map T.value
  control : n.control = T.control m.control
  pending : n.pending = m.pending.map (Pending.map T.value)
  openQuotes : n.openQuotes = m.openQuotes
  openParams : n.openParams = m.openParams
  origin : n.origin = m.origin
  maxFrames : n.maxFrames = m.maxFrames
  checkpoints : T.counts m.checkpoints n.checkpoints
  report : n.report = m.report.map T.report
  nextId : n.nextId = m.nextId

variable {T} {A B own : List Frame} {m n : Machine}

section

variable (mirrors : T.Mirrors A B own m n)
include mirrors

theorem Mirrors.size : n.frames.size = m.frames.size := by
  rw [← n.frames.length_eq, ← m.frames.length_eq, mirrors.frames, mirrors.frames']
  simp [mirrors.depth]

theorem Mirrors.isBuiltin (name : String) : n.isBuiltin name = m.isBuiltin name := by
  simp only [Machine.isBuiltin, mirrors.registry, Bindings.contains_map]

theorem Mirrors.isCollecting : n.isCollecting = m.isCollecting := by
  simp only [Machine.isCollecting, mirrors.openQuotes, mirrors.openParams]

theorem Mirrors.locate (e : RuntimeError) : n.locate e = m.locate e := by
  simp only [Machine.locate, mirrors.origin]

theorem Mirrors.pushFrame (f : Frame) :
    T.Mirrors A B (f :: own) { m with frames := m.frames.push f }
      { n with frames := n.frames.push (T.frame f) } :=
  { mirrors with
    frames := by simp [mirrors.frames]
    frames' := by simp [mirrors.frames'] }

theorem Mirrors.setFrames (rest : List Frame) {s t : Stack Frame} (left : s.toList = rest ++ A)
    (right : t.toList = rest.map T.frame ++ B) :
    T.Mirrors A B rest { m with frames := s } { n with frames := t } :=
  { mirrors with frames := left, frames' := right }

end

/-! ### The same machine on another ground -/

@[simp] theorem value_verbatim : verbatim.value = fun v => v := rfl

@[simp] theorem closure_verbatim (c : Closure Value) : verbatim.closure c = c := c.map_id

@[simp] theorem scope_verbatim (s : Scope) : verbatim.scope s = s := s.map_id

@[simp] theorem pair_verbatim : verbatim.pair = fun p => p := rfl

@[simp] theorem frame_verbatim : verbatim.frame = fun f => f := by
  funext f
  cases f with
  | iterate s => cases s <;> simp [frame, source]
  | _ => simp [frame]

@[simp] theorem control_verbatim (c : Control) : verbatim.control c = c := by
  cases c <;> simp [Translation.control]

@[simp] theorem report_verbatim : verbatim.report = fun r => r := by
  funext r
  simp [Translation.report]

@[simp] theorem registry_verbatim (r : Registry) : verbatim.registry r = r := by
  simp [Translation.registry, Bindings.map, verbatim]

@[simp] theorem pending_verbatim (p : Option (Pending Value)) :
    p.map (Pending.map verbatim.value) = p := by
  cases p <;> simp

/-- What is read verbatim differs in the ground and in nothing else. -/
theorem mirrors_verbatim_iff :
    verbatim.Mirrors A B own m n ↔ B.length = A.length ∧ m.frames.toList = own ++ A ∧
      n = { m with frames := .ofList (own ++ B) } := by
  constructor
  · intro mirrors
    refine ⟨mirrors.depth, mirrors.frames, ?_⟩
    have frames : n.frames = .ofList (own ++ B) := Stack.ext (by simp [mirrors.frames'])
    obtain ⟨_, _, _, registry, operands, scopes, control, pending, openQuotes, openParams, origin,
      maxFrames, checkpoints, report, nextId⟩ := mirrors
    rw [registry_verbatim] at registry
    rw [value_verbatim, Operands.map_id] at operands
    rw [value_verbatim, Scopes.map_id] at scopes
    rw [control_verbatim] at control
    rw [pending_verbatim] at pending
    rw [report_verbatim, Option.map_id_fun'] at report
    cases n
    rw [Machine.mk.injEq]
    exact ⟨registry, operands, scopes, frames, control, pending, openQuotes, openParams, origin,
      maxFrames, checkpoints.symm, report, nextId⟩
  · rintro ⟨depth, frames, rfl⟩
    exact {
      depth, frames
      frames' := by simp
      registry := by simp
      operands := by simp
      scopes := by simp
      control := by simp
      pending := by rw [pending_verbatim]
      openQuotes := rfl
      openParams := rfl
      origin := rfl
      maxFrames := rfl
      checkpoints := rfl
      report := by simp
      nextId := rfl }

/-! ### Actions -/

/-- The second result is the first as `T` reads it; answers are read by `V`. -/
inductive Rendered {α β : Type} (T : Translation) (A B : List Frame) (V : α → β) :
    EStateM.Result Signal Machine α → EStateM.Result Signal Machine β → Prop
  | ok {own a m n} : T.Mirrors A B own m n → Rendered T A B V (.ok a m) (.ok (V a) n)
  | error {own s m n} : T.Mirrors A B own m n →
      Rendered T A B V (.error s m) (.error (T.signal s) n)

/-- The second action does on a mirror image what the first does. -/
def Renders {α β : Type} (T : Translation) (A B : List Frame) (V : α → β) (x : Exec α)
    (y : Exec β) : Prop :=
  ∀ own m n, T.Mirrors A B own m n → Rendered T A B V (x m) (y n)

namespace Renders

variable {α β γ δ : Type} {V : α → β} {W : γ → δ}

theorem pure (a : α) : Renders T A B V (Pure.pure a) (Pure.pure (V a)) :=
  fun _ _ _ mirrors => .ok mirrors

theorem throw (signal : Signal) :
    Renders T A B V (MonadExcept.throw signal) (MonadExcept.throw (T.signal signal)) :=
  fun _ _ _ mirrors => .error mirrors

theorem fail (e : RuntimeError) : Renders T A B V (Exec.fail e) (Exec.fail e) :=
  throw (.error e)

theorem mismatch (operator expected : String) (v : Value) :
    Renders T A B V (Exec.fail (.mismatch operator expected v))
      (Exec.fail (.mismatch operator expected (T.value v))) := by
  rw [T.mismatch]
  exact fail _

theorem bind {x : Exec α} {y : Exec β} {f : α → Exec γ} {g : β → Exec δ}
    (first : Renders T A B V x y) (next : ∀ a, Renders T A B W (f a) (g (V a))) :
    Renders T A B W (x >>= f) (y >>= g) := by
  intro own m n mirrors
  have ends := first own m n mirrors
  simp only [Bind.bind, EStateM.bind]
  generalize x m = x' at ends
  generalize y n = y' at ends
  cases ends with
  | ok mirrors => exact next _ _ _ _ mirrors
  | error mirrors => exact .error mirrors

theorem ofExcept {x : Except RuntimeError α} {y : Except RuntimeError β} (read : y = x.map V) :
    Renders T A B V (Exec.ofExcept x) (Exec.ofExcept y) := by
  subst read
  cases x with
  | ok a => exact pure a
  | error e => exact fail e

/-- A check that says the same of both. -/
theorem check {x y : Except RuntimeError α} (same : y = x) :
    Renders T A B id (Exec.ofExcept x) (Exec.ofExcept y) :=
  ofExcept (by cases x <;> simp [same, Except.map])

theorem getThen {f : Machine → Exec α} {g : Machine → Exec β}
    (next : ∀ own m n, T.Mirrors A B own m n → Renders T A B V (f m) (g n)) :
    Renders T A B V (MonadState.get >>= f) (MonadState.get >>= g) :=
  fun own m n mirrors => next own m n mirrors own m n mirrors

theorem update {f g : Machine → Machine}
    (step : ∀ own m n, T.Mirrors A B own m n → ∃ above, T.Mirrors A B above (f m) (g n)) :
    Renders T A B id (modify f) (modify g) := by
  intro own m n mirrors
  obtain ⟨above, mirrors⟩ := step own m n mirrors
  exact .ok (a := ()) mirrors

/-! ### Operands -/

theorem push (v : Value) : Renders T A B id (Exec.push v) (Exec.push (T.value v)) := by
  refine update fun own m n mirrors => ⟨own, { mirrors with operands := ?_ }⟩
  simp only [mirrors.operands, Operands.map_push]

theorem pop : Renders T A B T.value Exec.pop Exec.pop := by
  intro own m n mirrors
  simp only [Exec.pop, mirrors.operands, Operands.pop_map]
  cases m.operands.pop with
  | error e => exact .error (s := .error e) mirrors
  | ok found => exact .ok { mirrors with operands := rfl }

theorem peek (offset : Nat) : Renders T A B T.value (Exec.peek offset) (Exec.peek offset) :=
  getThen fun own m n mirrors => ofExcept (by rw [mirrors.operands, Operands.peek_map])

theorem popAs (operator expected : String) {read? : Value → Option α} {read?' : Value → Option β}
    (reads : ∀ v, read?' (T.value v) = (read? v).map V) :
    Renders T A B V (Exec.popAs operator expected read?)
      (Exec.popAs operator expected read?') := by
  refine pop.bind fun v => ?_
  rw [reads]
  cases read? v with
  | none => exact mismatch operator expected v
  | some a => exact pure a

theorem popInt (operator : String) : Renders T A B id (Exec.popInt operator)
    (Exec.popInt operator) :=
  popAs operator "Int" fun v => by cases v <;> simp

theorem popBool (operator : String) : Renders T A B id (Exec.popBool operator)
    (Exec.popBool operator) :=
  popAs operator "Bool" fun v => by cases v <;> simp

theorem popStr (operator : String) : Renders T A B id (Exec.popStr operator)
    (Exec.popStr operator) :=
  popAs operator "Str" fun v => by cases v <;> simp

theorem popName (operator : String) : Renders T A B id (Exec.popName operator)
    (Exec.popName operator) :=
  popAs operator "a name" fun v => by cases v <;> simp

theorem popBody (operator : String) : Renders T A B (List.map T.value) (Exec.popBody operator)
    (Exec.popBody operator) :=
  popAs operator "a quotation" fun v => by cases v <;> simp

theorem popCallable (operator : String) : Renders T A B T.value (Exec.popCallable operator)
    (Exec.popCallable operator) := by
  refine popAs operator "a quotation" fun v => ?_
  rw [T.isCallable]
  split <;> rfl

/-! ### Identities, names and frames -/

theorem fresh : Renders T A B id Exec.fresh Exec.fresh := by
  intro own m n mirrors
  simp only [Exec.fresh, mirrors.nextId]
  exact .ok (V := id) { mirrors with nextId := rfl }

theorem pushArray (items : List Value) :
    Renders T A B id (Exec.pushArray items) (Exec.pushArray (items.map T.value)) := by
  refine fresh.bind fun i => ?_
  have pushed := push (T := T) (A := A) (B := B) (.array i items)
  rwa [T.value_array] at pushed

theorem put (name : String) (v : Value) :
    Renders T A B id (Exec.put name v) (Exec.put name (T.value v)) := by
  refine update fun own m n mirrors => ⟨own, { mirrors with scopes := ?_ }⟩
  simp only [mirrors.scopes, Scopes.map_put]

theorem define (name : String) (v : Value) :
    Renders T A B id (Exec.define name v) (Exec.define name (T.value v)) := by
  intro own m n mirrors
  simp only [Exec.define, Exec.change, Machine.define, mirrors.isBuiltin]
  by_cases builtin : m.isBuiltin name = true
  · rw [if_pos builtin, if_pos builtin]
    exact .error (s := .error _) mirrors
  · rw [if_neg builtin, if_neg builtin]
    refine .ok (a := ()) { mirrors with scopes := ?_ }
    simp only [mirrors.scopes, Scopes.map_put]

theorem forbid : Renders T A B id Exec.forbid Exec.forbid := by
  refine update fun own m n mirrors => ⟨own, { mirrors with operands := ?_ }⟩
  simp only [mirrors.operands]
  rfl

theorem pushFrame (f : Frame) :
    Renders T A B id (Exec.pushFrame f) (Exec.pushFrame (T.frame f)) := by
  intro own m n mirrors
  have room : n.maxFrames ≤ n.frames.size ↔ m.maxFrames ≤ m.frames.size := by
    rw [mirrors.maxFrames, mirrors.size]
  simp only [Exec.pushFrame, room]
  by_cases full : m.maxFrames ≤ m.frames.size
  · rw [if_pos full, if_pos full]
    exact .error (s := .error _) mirrors
  · rw [if_neg full, if_neg full]
    exact .ok (a := ()) (mirrors.pushFrame f)

end Renders

end Translation

end Catena
