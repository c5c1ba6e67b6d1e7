import Catena.Proofs.Grounding
import Catena.Proofs.Handling
import Catena.Proofs.Leaving

set_option autoImplicit false

/-!
Runs keep to rules. A call binds the names that its closure declares, so that a rule has to allow
these; apart from that, whatever calls, frames and signals do to a machine, no value in it breaks a
rule that all of them have obeyed.
-/

namespace Catena

namespace Exec

variable {R : Rule} {α β : Type}

/-! ### Calls and code -/

theorem Draws.obeys {m m' : Machine} (draws : Draws m m') (obeys : m.Obeys R) : m'.Obeys R := by
  obtain ⟨operands, rfl, drawn⟩ := draws
  exact { obeys with operands := fun v member => obeys.operands v (drawn member) }

theorem keeps_enterScope {scope : Scope} (all : scope.Obeys R) : Keeps R (enterScope scope) := by
  refine keeps_modify fun m obeys => { obeys with
    active := all
    saved := List.forall_mem_cons.2 ⟨obeys.active, obeys.saved⟩
    root := fun name member => obeys.root name ?_ }
  rwa [Scopes.root_enter] at member

theorem obeys_leave {m : Machine} (obeys : m.Obeys R) :
    { m with scopes := m.scopes.leave }.Obeys R := by
  have saved := obeys.saved
  have root := obeys.root
  rw [Scopes.root] at root
  unfold Scopes.leave
  split
  · exact { obeys with
      active := ⟨List.forall_mem_nil _, List.forall_mem_nil _⟩
      saved := List.forall_mem_nil _
      root := List.forall_mem_nil _ }
  · next scope rest found =>
    rw [found] at saved root
    obtain ⟨first, others⟩ := List.forall_mem_cons.1 saved
    rw [List.getLast?_cons, Option.getD_some] at root
    exact { obeys with active := first, saved := others, root := root }

/-- The rule allows the parameters of the closures that are running. -/
def Admits (R : Rule) (m : Machine) : Prop :=
  ∀ c floor, Frame.call c floor ∈ m.frames.toList → ∀ name ∈ c.paramNames, R.name name

/-- Actions that may call a closure. They keep to a rule that allows its parameters. -/
def Calling (R : Rule) (x : Exec α) : Prop :=
  ∀ m : Machine, m.Obeys R → (∀ a m', x m = .ok a m' → Admits R m') →
    Obeying R (fun _ => True) (x m)

theorem Gives.calling {Q : α → Prop} {x : Exec α} (gives : Gives R Q x) : Calling R x := by
  intro m obeys _
  have ended := gives m obeys
  cases ran : x m with
  | error signal m' =>
    rw [ran] at ended
    exact ended
  | ok a m' =>
    rw [ran] at ended
    exact ⟨ended.1, trivial⟩

theorem Gives.thenCalling {Q : α → Prop} {x : Exec α} {f : α → Exec β} (first : Gives R Q x)
    (next : ∀ a, Q a → Calling R (f a)) : Calling R (x >>= f) := by
  intro m obeys admits
  have ended := first m obeys
  simp only [Bind.bind, EStateM.bind] at admits ⊢
  cases ran : x m with
  | error signal m' =>
    rw [ran] at ended
    exact ended
  | ok a m' =>
    rw [ran] at ended admits
    exact next a ended.2 m' ended.1 admits

theorem Calling.thenPure {x : Exec α} (calling : Calling R x) (b : β) :
    Calling R (do let _ ← x; pure b) := by
  intro m obeys admits
  simp only [Bind.bind, EStateM.bind] at admits ⊢
  have ended := calling m obeys fun a m' ran => admits b m' (by rw [ran]; rfl)
  cases ran : x m with
  | error signal m' =>
    rw [ran] at ended
    exact ended
  | ok a m' =>
    rw [ran] at ended
    exact ⟨ended.1, trivial⟩

theorem calling_push {v : Value} (own : v.Obeys R) : Calling R (push v) := (keeps_push own).calling

/-- Arguments are bound in a scope that is given up if they do not fit. -/
theorem obeys_binds {names : List String} {values : List Value} {m : Machine}
    {x : EStateM.Result Signal Machine Unit} (binds : Binds names values m x)
    (obeys : m.Obeys R) (all : AllObey R values) (nested : m.scopes.saved ≠ []) :
    { left x with scopes := (left x).scopes.leave }.Obeys R ∧
      ((∀ name ∈ names, R.name name) → (left x).Obeys R) := by
  obtain ⟨pairs, bound, new⟩ := binds.binds
  have given := obeys_leave obeys
  rw [bound]
  refine ⟨given, fun allowed => ?_⟩
  refine { obeys with
    active := obeys.active.insertAll (fun pair inside => (all _ (new pair inside).2).allowed)
      fun pair inside => allowed _ (new pair inside).1
    root := ?_ }
  have root := obeys.root
  rw [Scopes.root_mk, if_neg nested] at root
  rw [Scopes.root_mk, if_neg nested]
  exact root

theorem calling_enter {c : Closure Value} (own : (Value.closure c).Allowed R) :
    Calling R (enter c) := by
  intro m machine admits
  rcases enter_cases c m with ⟨_, refused⟩ | ⟨_, outcome⟩
  · rw [refused]
    exact ⟨machine, List.forall_mem_nil _⟩
  · let m₀ : Machine := { m with scopes := m.scopes.enter c.activation }
    have entered : m₀.Obeys R := (keeps_enterScope (Closure.obeys_activation own) m machine).1
    obtain ⟨m₁, draws, binds⟩ := binds_bindParameters c m₀
    have nested : m₁.scopes.saved ≠ [] := by
      obtain ⟨operands, rfl, _⟩ := draws
      exact List.cons_ne_nil _ _
    obtain ⟨given, bound⟩ := obeys_binds binds (draws.obeys entered) entered.operands nested
    rcases outcome with ⟨m₂, ended, ran⟩ | ⟨signal, m₂, ended, ran⟩
    · rw [ended] at bound
      rw [ran] at admits ⊢
      have allowed := admits () _ rfl c _ (List.mem_cons_of_mem _ List.mem_cons_self)
      refine ⟨{ bound allowed with frames := ?_ }, trivial⟩
      have code := (List.forall_mem_append.1 own.parts).1
      exact List.forall_mem_cons.2 ⟨code, List.forall_mem_cons.2 ⟨own, (bound allowed).frames⟩⟩
    · rw [ended] at given
      rw [ran]
      obtain ⟨e, rfl⟩ := binds.error signal m₂ ended
      exact ⟨given, List.forall_mem_nil _⟩

/-- The induction is on the operands, as an operation that hands over to a value has taken one. -/
theorem calling_invoke {v : Value} (own : v.Runnable R) : Calling R (invoke v) := by
  intro m
  induction size : m.operands.count using Nat.strongRecOn generalizing v m with
  | _ size ih =>
    intro machine admits
    cases v with
    | quote id code =>
      rw [invoke]
      exact keeps_pushFrame (f := .body code) own.parts m machine
    | closure c =>
      rw [invoke] at admits ⊢
      exact calling_enter own m machine admits
    | op o origin =>
      have ended := hands_operation own m machine
      rw [Parallel.invoke_op] at admits ⊢
      simp only [Bind.bind, EStateM.bind] at admits ⊢
      cases ran : operation o m with
      | error signal m' =>
        rw [ran] at ended
        exact ended
      | ok handed m' =>
        rw [ran] at ended admits
        cases handed with
        | none => exact ⟨ended.1, trivial⟩
        | some next =>
          have taken := (tame_operation o _ _ _ ran).1
          exact ih _ (by omega) (ended.2 next rfl).allowed.runnable m' rfl ended.1 admits
    | array id items =>
      simp only [invoke]
      exact gives_fail _ m machine
    | _ =>
      rw [Parallel.invoke_of_isPlain rfl]
      exact gives_fail _ m machine

theorem calling_resolve (name : String) : Calling R (resolve name) := by
  refine gives_get.thenCalling fun m machine => ?_
  split
  · next b known =>
    exact calling_invoke (v := .op (.builtin b) .none) (machine.registry name b known)
  · split
    · next found => exact calling_enter (Bindings.allowed_of_get? machine.active.values found)
    · next o origin found =>
      have own : (Value.op o origin).Allowed R :=
        Bindings.allowed_of_get? machine.active.values found
      exact calling_invoke (v := .op o .none) own.operation
    · next other found =>
      have own := Bindings.allowed_of_get? machine.active.values found
      exact calling_push (own.obeys (Value.isOp_eq_false other))
    · exact (gives_fail (Q := fun _ => True) _).calling

theorem keeps_setOrigin {origin : Origin} (place : R.place (some origin)) :
    Keeps R (setOrigin origin) :=
  keeps_modify fun _ obeys => { obeys with place := place }

theorem gives_popContainer (bracket : Bracket) : Gives R (AllObey R) (popContainer bracket) := by
  intro m obeys
  simp only [popContainer]
  cases popped : m.operands.popUntil (isMarker (openingMarker bracket)) with
  | none => exact ⟨obeys, List.forall_mem_nil _⟩
  | some found =>
    obtain ⟨items, rest⟩ := found
    simp only [Operands.popUntil] at popped
    split at popped
    · cases popped
      refine ⟨{ obeys with operands := fun v member => ?_ }, fun v member => ?_⟩
      · exact obeys.operands v (List.mem_of_mem_drop member)
      · apply obeys.operands v
        exact List.mem_of_mem_take (List.takeWhile_subset _ (List.mem_reverse.1 member))
    · cases popped

/-- If there are no more containers open than before, nothing new is collected. -/
theorem keeps_countOpen (bracket : Bracket) {count : Nat → Nat}
    (fewer : (∀ n, count n ≤ n) ∨ R.loose) : Keeps R (countOpen bracket count) := by
  cases bracket with
  | array => exact gives_pure trivial
  | quote =>
    refine keeps_modify fun m obeys => { obeys with settled := fun collecting => ?_ }
    refine fewer.elim (fun fewer => obeys.settled ?_) id
    have bound := fewer m.openQuotes
    simp only [Machine.isCollecting, Bool.or_eq_true, decide_eq_true_eq] at collecting ⊢
    omega
  | params =>
    refine keeps_modify fun m obeys => { obeys with settled := fun collecting => ?_ }
    refine fewer.elim (fun fewer => obeys.settled ?_) id
    have bound := fewer m.openParams
    simp only [Machine.isCollecting, Bool.or_eq_true, decide_eq_true_eq] at collecting ⊢
    omega

theorem keeps_closeContainer (bracket : Bracket) : Keeps R (closeContainer bracket) := by
  apply (gives_popContainer bracket).bind
  intro items all
  apply (keeps_countOpen bracket (.inl fun n => n.sub_le 1)).bind
  intro _ _
  cases bracket with
  | array => exact keeps_pushArray all
  | quote => exact keeps_fresh.bind fun id _ => keeps_push (.quote (AllObey.allowed all) id)
  | params =>
    exact (gives_ofExcept fun _ _ => trivial).bind fun _ (_ : True) =>
      keeps_push (.plain trivial rfl)

theorem calling_value {v : Value} (allowed : v.Allowed R) : Calling R (value v) := by
  unfold value
  split
  · exact (keeps_closeContainer .array).calling
  · exact (keeps_setOrigin allowed.own).thenCalling fun _ _ => calling_resolve _
  · next o origin =>
    exact (keeps_setOrigin allowed.own.1).thenCalling fun _ _ =>
      calling_invoke (v := .op o .none) allowed.operation
  · next other => exact calling_push (allowed.obeys (Value.isOp_eq_false other))

theorem calling_token {t : Token} (reads : R.Reads t) : Calling R (token t) := by
  apply (keeps_setOrigin reads.place).thenCalling
  intro _ _
  cases lexeme : t.lexeme with
  | arrow => exact calling_push (.plain reads.arrow rfl)
  | opening bracket =>
    obtain ⟨marker, loose⟩ := reads.opens bracket lexeme
    have opened : (Value.marker (openingMarker bracket)).Obeys R := .plain marker rfl
    exact ((keeps_countOpen bracket (.inr loose)).bind fun _ _ => keeps_push opened).calling
  | closing bracket =>
    apply gives_get.thenCalling
    intro m _
    split
    · exact calling_push (.plain reads.arrayClose rfl)
    · exact (keeps_closeContainer bracket).calling
  | name text =>
    apply gives_get.thenCalling
    intro m machine
    split
    · next collecting =>
      apply calling_push
      unfold deferred
      split
      · next b known =>
        have own := machine.registry text b known
        exact ⟨.builtin reads.place own, fun _ => machine.settled collecting⟩
      · exact .plain reads.place rfl
    · exact calling_resolve text
  | _ => exact calling_push (.plain trivial rfl)

/-! ### Frames -/

/-- Frames whose code and data obey. -/
abbrev FramesObey (R : Rule) (frames : List Frame) : Prop := ∀ f ∈ frames, f.Obeys R

theorem framesObey_push (f : Frame) {below : Stack Frame} (own : f.Obeys R)
    (all : FramesObey R below.toList) : FramesObey R (below.push f).toList :=
  List.forall_mem_cons.2 ⟨own, all⟩

theorem keeps_setFrames {frames : Stack Frame} (all : FramesObey R frames.toList) :
    Keeps R (setFrames frames) :=
  keeps_modify fun _ obeys => { obeys with frames := all }

theorem keeps_leaveCall {c : Closure Value} {floor : Nat} {below : Stack Frame}
    (all : FramesObey R below.toList) : Keeps R (leaveCall c floor below) := by
  have check : Keeps R (checkLeft c floor) := by
    unfold checkLeft
    split
    · exact gives_get.bind fun _ _ => gives_ofExcept fun _ _ => trivial
    · exact gives_pure trivial
  refine check.bind fun _ _ => keeps_modify fun m obeys => ?_
  exact { obeys_leave obeys with frames := all }

theorem keeps_leaveUpdate {items : List Value} {field : Field} {types : Scope} {floor : Nat}
    {below : Stack Frame} (own : AllObey R items) (all : FramesObey R below.toList) :
    Keeps R (leaveUpdate items field types floor below) := by
  refine gives_get.bind fun m machine => ?_
  have left : Keeps R (set { m with frames := below, operands := m.operands.allow floor } :
      Exec Unit) := fun _ _ => ⟨{ machine with frames := all }, trivial⟩
  refine left.bind fun _ _ => ?_
  split
  · exact gives_pop.bind fun _ new => keeps_writeField own new
  · exact gives_fail _

theorem obeys_element {source : Source} (all : AllObey R source.parts) (index : Nat) :
    (source.element index).Obeys R := by
  cases source with
  | range start stop => exact .plain trivial rfl
  | chars text => exact .plain trivial rfl
  | items values =>
    rw [Source.element, List.getD_eq_getElem?_getD]
    cases found : values[index]? with
    | none => exact .plain trivial rfl
    | some v => exact all v (List.mem_of_getElem? found)

theorem keeps_pushElement {source : Source} (all : AllObey R source.parts) (index : Nat)
    (withIndex : Bool) : Keeps R (pushElement source index withIndex) := by
  refine (keeps_push (obeys_element all index)).bind fun _ _ => ?_
  split
  · exact keeps_push (.plain trivial rfl)
  · exact gives_pure trivial

theorem keeps_runBody {body : List Value} (all : AllAllowed R body) :
    Keeps R (runBody body) := by
  unfold runBody
  split
  · exact gives_pure trivial
  · exact (keeps_pushFrame (f := .body body) all).bind fun _ _ => gives_pure trivial

theorem calling_checkCondition {action : Value} {pairs : List (Value × Value)} {below : Stack Frame}
    (own : action.Obeys R) (rest : AllObey R (pairParts pairs)) (all : FramesObey R below.toList) :
    Calling R (checkCondition action pairs below) := by
  refine gives_pop.thenCalling fun v _ => ?_
  split
  · exact (keeps_setFrames all).thenCalling fun _ _ => calling_invoke own.allowed.runnable
  · exact (keeps_setFrames (framesObey_push (.condTest pairs) rest all)).calling
  · exact (gives_fail (Q := fun _ => True) _).calling

theorem calling_advance {f : Frame} {below : Stack Frame}
    (reads : ∀ t rest, f = .program (t :: rest) → R.Reads t) (own : f.Obeys R)
    (all : FramesObey R below.toList) : Calling R (advance f below) := by
  have ends {x : Exec Unit} (keeps : Keeps R x) (tick : Tick) :
      Calling R (do x; pure tick : Exec Tick) :=
    keeps.calling.thenPure tick
  cases f with
  | program tokens =>
    cases tokens with
    | nil => exact ends (keeps_setFrames all) _
    | cons t rest =>
      have left := framesObey_push (.program rest) trivial all
      exact (keeps_setFrames left).thenCalling fun _ _ =>
        (calling_token (reads t rest rfl)).thenPure _
  | body code =>
    cases code with
    | nil => exact ends (keeps_setFrames all) _
    | cons v rest =>
      obtain ⟨first, others⟩ := List.forall_mem_cons.1 own
      exact (keeps_setFrames (framesObey_push (.body rest) others all)).thenCalling fun _ _ =>
        (calling_value first).thenPure _
  | call c floor => exact ends (keeps_leaveCall all) _
  | loop code => exact (keeps_runBody own).calling
  | iterate source index withIndex code =>
    obtain ⟨elements, body⟩ := own
    unfold advance
    dsimp only
    split
    · let next : Frame := .iterate source (index + 1) withIndex code
      apply (keeps_setFrames (framesObey_push next ⟨elements, body⟩ all)).thenCalling
      intro _ _
      have keeps := (keeps_pushElement elements index withIndex).bind fun _ _ => keeps_runBody body
      exact keeps.calling
    · exact ends (keeps_setFrames all) _
  | condTest pairs =>
    cases pairs with
    | nil => exact ends (keeps_setFrames all) _
    | cons pair rest =>
      obtain ⟨test, own⟩ := List.forall_mem_cons.1 own
      obtain ⟨action, others⟩ := List.forall_mem_cons.1 own
      have left := framesObey_push (.condCheck pair.2 rest) ⟨action, others⟩ all
      exact (keeps_setFrames left).thenCalling
        fun _ _ => (calling_invoke test.allowed.runnable).thenPure _
  | condCheck action pairs => exact (calling_checkCondition own.1 own.2 all).thenPure _
  | attempt height => exact ends (keeps_setFrames all) _
  | update items field types floor =>
    exact ends (keeps_leaveUpdate own.1 all) _

/-! ### Signals -/

section

variable {m : Machine} (obeys : m.Obeys R)
include obeys

theorem obeys_release (f : Frame) : (m.release f).Obeys R := by
  cases f with
  | call c floor => exact { obeys_leave obeys with }
  | update items field types floor => exact { obeys with }
  | _ => exact obeys

theorem obeys_releaseAll (frames : List Frame) : (m.releaseAll frames).Obeys R := by
  induction frames generalizing m with
  | nil => exact obeys
  | cons f frames ih => exact ih (obeys_release obeys f)

theorem framesObey_drop (n : Nat) : FramesObey R (m.frames.drop n).toList :=
  fun f member => obeys.frames f (List.mem_of_mem_drop member)

theorem framesObey_split {read? : Frame → Option β} {above : List Frame} {b : β}
    {below : Stack Frame} (found : m.frames.split? read? = some (above, b, below)) :
    FramesObey R below.toList := by
  simp only [Stack.split?] at found
  split at found
  · cases found
  · next f rest top =>
    obtain ⟨_, _, same⟩ := Option.map_eq_some_iff.1 found
    cases same
    have dropped := framesObey_drop obeys
      (m.frames.toList.takeWhile fun f => (read? f).isNone).length
    rw [Stack.pop?_eq_some_iff.1 top] at dropped
    exact (List.forall_mem_cons.1 dropped).2

end

theorem keeps_leaveLoop : Keeps R leaveLoop := by
  intro m obeys
  unfold leaveLoop
  split
  · next above below found =>
    exact ⟨{ obeys_releaseAll obeys above with frames := framesObey_split obeys found }, trivial⟩
  · next above _ _ =>
    exact ⟨{ obeys_releaseAll obeys above with frames := framesObey_drop obeys _ },
      List.forall_mem_nil _⟩
  · exact ⟨{ obeys_releaseAll obeys m.frames.toList with frames := List.forall_mem_nil _ },
      List.forall_mem_nil _⟩

end Exec

namespace Machine

variable {R : Rule} {m : Machine}

theorem Obeys.calm (obeys : m.Obeys R) : { m with control := .none }.Obeys R :=
  { obeys with control := List.forall_mem_nil _ }

/-- A machine that has not done anything holds nothing but what its builtins answer. -/
theorem obeys_new {r : Registry} {origin : Origin} {maxFrames : Nat} {report : Option Report}
    (registry : ∀ name b, r.get? name = some b → AllObey R b.action.parts)
    (place : R.place (some origin)) (free : ∀ name, r.contains name = false → R.name name) :
    ({ Machine.new r with origin, maxFrames, report } : Machine).Obeys R where
  operands := List.forall_mem_nil _
  active := ⟨List.forall_mem_nil _, List.forall_mem_nil _⟩
  saved := List.forall_mem_nil _
  frames := List.forall_mem_nil _
  control := List.forall_mem_nil _
  pending a none := by cases none
  registry := registry
  place := place
  free := free
  root := List.forall_mem_nil _
  settled collecting := by cases collecting

theorem Obeys.load (obeys : m.Obeys R) (tokens : List Token) : (m.load tokens).Obeys R :=
  { obeys with
    frames := List.forall_mem_singleton.2 trivial
    control := List.forall_mem_nil _ }

theorem Obeys.abort (obeys : m.Obeys R) : m.abort.Obeys R :=
  { Exec.obeys_releaseAll obeys m.frames.toList with
    frames := List.forall_mem_nil _
    control := List.forall_mem_nil _
    pending := fun _ none => by cases none
    settled := fun collecting => by cases collecting }

theorem Obeys.raiseError (obeys : m.Obeys R) {e : LocatedError} (own : (Value.error e).Obeys R) :
    (m.raiseError e).2.Obeys R := by
  unfold Machine.raiseError
  split
  · next above height below found =>
    have released := Exec.obeys_releaseAll obeys above
    refine { released with
      frames := Exec.framesObey_split obeys found
      operands := List.forall_mem_cons.2 ⟨own, fun v member => ?_⟩ }
    exact released.operands v (List.mem_of_mem_drop member)
  · exact obeys.abort

theorem Obeys.fail (obeys : m.Obeys R) (e : RuntimeError) : (m.fail e).2.Obeys R :=
  obeys.raiseError (.plain obeys.place rfl)

theorem Obeys.interrupt (obeys : m.Obeys R) {signal : Signal} (own : AllObey R signal.parts) :
    (m.interrupt signal).2.Obeys R := by
  cases signal with
  | error e => exact obeys.fail e
  | «break» => exact { obeys with control := List.forall_mem_nil _ }
  | tailCall target => exact { obeys with control := own }
  | await pending =>
    refine { obeys with control := List.forall_mem_nil _, pending := fun a same => ?_ }
    cases same
    exact own

theorem Obeys.afterAdvance {x : EStateM.Result Signal Machine Tick}
    (ended : Exec.Obeying R (fun _ => True) x) : (afterAdvance x).2.Obeys R := by
  cases x with
  | error signal m' => exact ended.1.interrupt ended.2
  | ok tick m' =>
    cases tick with
    | internal => exact ended.1
    | checkpoint => exact { ended.1 with }

theorem Obeys.afterSignal {x : EStateM.Result Signal Machine Unit}
    (ended : Exec.Obeying R (fun _ => True) x) : (afterSignal x).2.Obeys R := by
  cases x with
  | error signal m' => exact ended.1.interrupt ended.2
  | ok _ m' => exact ended.1

/-- An error in a closure gives up its scope. -/
theorem Obeys.fail_of_call {c : Closure Value} {floor : Nat} {below : List Frame}
    (given : { m with scopes := m.scopes.leave }.Obeys R)
    (frames : m.frames.toList = .call c floor :: below) (e : RuntimeError) :
    (m.fail e).2.Obeys R := by
  have passed : ∀ f ∈ [Frame.call c floor], f.attemptHeight? = none :=
    List.forall_mem_singleton.2 rfl
  rw [Machine.fail, raiseError_of_append frames passed]
  apply Obeys.raiseError
  · refine { given with frames := fun f member => given.frames f ?_ }
    change f ∈ m.frames.toList
    rw [frames]
    exact List.mem_cons_of_mem _ member
  · exact .plain given.place rfl

/-- A tail call that does not bind its parameters gives up the closure that it was to replace. -/
theorem Obeys.replaceCall (obeys : m.Obeys R) {target : Closure Value}
    (own : (Value.closure target).Allowed R)
    (admits : Exec.Admits R (Machine.afterSignal (Exec.replaceCall target m)).2) :
    (Machine.afterSignal (Exec.replaceCall target m)).2.Obeys R := by
  rcases exists_split Frame.callFloor? m.frames.toList with free |
    ⟨above, f, rest, floor, frames, passed, found⟩
  · rw [Exec.replaceCall_of_passed free]
    exact obeys.fail _
  · obtain ⟨below, split, lower⟩ := Stack.split?_of_append frames passed found
    rw [Exec.replaceCall_eq split] at admits ⊢
    let m₀ : Machine := { m.releaseAll above with
      frames := m.frames.drop above.length
      scopes := (m.releaseAll above).scopes.leave.enter target.activation }
    have entered : m₀.Obeys R := by
      have released := Exec.obeys_leave (Exec.obeys_releaseAll obeys above)
      have replaced := (Exec.keeps_enterScope (Closure.obeys_activation own) _ released).1
      exact { replaced with frames := Exec.framesObey_drop obeys _ }
    obtain ⟨m₁, draws, binds⟩ := Exec.binds_bindParameters target m₀
    obtain ⟨operands, rfl, drawn⟩ := draws
    have taken := Exec.Draws.obeys ⟨operands, rfl, drawn⟩ entered
    obtain ⟨given, bound⟩ :=
      Exec.obeys_binds binds taken entered.operands (List.cons_ne_nil _ _)
    simp only [Bind.bind, EStateM.bind] at admits ⊢
    cases ended : Exec.bindParameters target m₀ with
    | error signal m₂ =>
      rw [ended] at given
      obtain ⟨e, rfl⟩ := binds.error signal m₂ ended
      obtain ⟨pairs, left, _⟩ := binds.binds
      rw [ended] at left
      have top : m₂.frames.toList = f :: rest := by
        rw [show m₂.frames = m.frames.drop above.length from congrArg Machine.frames left,
          Stack.toList_drop, frames, List.drop_left]
      cases f with
      | call c floor => exact fail_of_call given top e
      | _ => cases found
    | ok _ m₂ =>
      rw [ended] at bound admits
      have allowed := admits target floor (List.mem_cons_of_mem _ List.mem_cons_self)
      refine { bound allowed with frames := ?_ }
      have code := (List.forall_mem_append.1 own.parts).1
      apply Exec.framesObey_push (.body target.body) code
      exact Exec.framesObey_push (.call target floor) own
        (Exec.framesObey_split obeys split)

/-- What the step before has left can be heeded. -/
theorem Obeys.heed (obeys : m.Obeys R) (admits : Exec.Admits R m.heed.2) : m.heed.2.Obeys R := by
  have left := obeys.control
  unfold Machine.heed at admits ⊢
  cases control : m.control with
  | none => exact obeys
  | suspend => exact obeys
  | throw e =>
    rw [control] at left
    exact obeys.calm.raiseError (List.forall_mem_singleton.1 left)
  | «break» => exact afterSignal (Exec.keeps_leaveLoop _ obeys.calm)
  | tailCall target =>
    rw [control] at left admits
    exact obeys.calm.replaceCall (List.forall_mem_singleton.1 left).allowed admits

theorem Obeys.turn (obeys : m.Obeys R) (admits : Exec.Admits R m.turn.2)
    (reads : ∀ t rest, m.frames.toList.head? = some (.program (t :: rest)) → R.Reads t) :
    m.turn.2.Obeys R := by
  unfold Machine.turn at admits ⊢
  cases top : m.frames.pop? with
  | none =>
    simp only [ending, finish]
    split
    · exact obeys.fail _
    · exact obeys
  | some found =>
    obtain ⟨f, below⟩ := found
    have frames := Stack.pop?_eq_some_iff.1 top
    rw [top] at admits
    have all := obeys.frames
    rw [frames] at all reads
    obtain ⟨own, lower⟩ := List.forall_mem_cons.1 all
    have calling :=
      Exec.calling_advance (fun t rest same => reads t rest (congrArg some same)) own lower
    refine afterAdvance (calling m obeys fun tick m' ran => ?_)
    simp only [ran] at admits
    cases tick with
    | internal => exact admits
    | checkpoint => exact admits

theorem Obeys.answer (obeys : m.Obeys R) {reply : Reply Value} (own : AllObey R reply.parts) :
    (m.answer reply).Obeys R := by
  have free : ∀ a, (none : Option (Pending Value)) = some a → AllObey R a.future.parts := by
    intro a none
    cases none
  cases reply with
  | value v =>
    have operands := List.forall_mem_cons.2 ⟨own v List.mem_cons_self, obeys.operands⟩
    exact { obeys with operands := operands, control := List.forall_mem_nil _, pending := free }
  | nothing => exact { obeys with control := List.forall_mem_nil _, pending := free }
  | failure e =>
    have thrown : (Value.error (m.locate e)).Obeys R := .plain obeys.place rfl
    exact { obeys with control := List.forall_mem_singleton.2 thrown, pending := free }

end Machine

/-! ### Runs -/

namespace Machine

variable {R : Rule} {m m' : Machine}

theorem Obeys.pass (obeys : m.Obeys R) (admits : Exec.Admits R m.pass.2)
    (reads : ∀ t ∈ m.upcoming, R.Reads t) : m.pass.2.Obeys R := by
  by_cases calm : m.control = .none
  · rw [pass_of_calm calm] at admits ⊢
    refine obeys.turn admits fun t rest head => reads t ?_
    rw [upcoming, calm, head]
    exact List.mem_singleton_self t
  · rw [pass_of_control calm] at admits ⊢
    exact obeys.heed admits

theorem Obeys.moves (obeys : m.Obeys R) (moves : m.Moves m') (admits : Exec.Admits R m')
    (reads : ∀ t ∈ m.upcoming, R.Reads t) : m'.Obeys R := by
  cases moves with
  | pass _ passed _ =>
    have after := obeys.pass (by rwa [passed]) reads
    rwa [passed] at after
  | @answer pending reply time _ waiting waited =>
    have own := obeys.pending pending waiting
    rw [Future.parts_of_wait waited] at own
    exact obeys.answer own
  | resume _ free =>
    rw [resume_eq_answer free]
    exact obeys.answer (List.forall_mem_nil _)

theorem Obeys.ends {o : Outcome} (obeys : m.Obeys R) (ends : m.Ends o m')
    (admits : Exec.Admits R m') (reads : ∀ t ∈ m.upcoming, R.Reads t) : m'.Obeys R := by
  cases ends with
  | intro _ passed _ =>
    have after := obeys.pass (by rwa [passed]) reads
    rwa [passed] at after

end Machine

end Catena
