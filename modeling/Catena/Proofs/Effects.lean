import Catena.Proofs.Invocation
import Catena.Proofs.Steady

set_option autoImplicit false

/-!
What running code does to the frames, the saved scopes and the open containers of a machine. An
operation may leave frames for work to be done, but it calls nothing itself: calls are entered last,
on top of everything else. However an action ends, this is what it leaves.
-/

namespace Catena

/-- Where an element of two joined lists stands. -/
theorem append_split {α : Type} {front back above below : List α} {x : α}
    (split : front ++ back = above ++ x :: below) :
    (∃ mid, front = above ++ x :: mid ∧ below = mid ++ back) ∨
      ∃ mid, above = front ++ mid ∧ back = mid ++ x :: below := by
  rcases List.append_eq_append_iff.1 split with ⟨mid, rfl, lower⟩ | ⟨mid, rfl, lower⟩
  · exact .inr ⟨mid, rfl, lower⟩
  · cases mid with
    | nil => exact .inr ⟨[], by simp, lower.symm⟩
    | cons y mid =>
      obtain ⟨rfl, rfl⟩ := List.cons.inj lower
      exact .inl ⟨mid, rfl, rfl⟩

/-- The frames `new` have been added, with a saved scope for each call and within the limit. No call
stands below a new attempt, and the code of a closure stands on its call. -/
structure Machine.Adds (new : List Frame) (m m' : Machine) : Prop where
  frames : m'.frames.toList = new ++ m.frames.toList
  room : m.frames.size ≤ m.maxFrames → m'.frames.size ≤ m'.maxFrames
  saved : m'.scopes.saved.drop (callsIn new) = m.scopes.saved
  registers : m'.registers = m.registers
  openQuotes : m'.openQuotes = m.openQuotes
  openParams : m'.openParams = m.openParams
  code : ∀ f ∈ new, f.isProgram = false
  order : ∀ above height below, new = above ++ .attempt height :: below → callsIn below = 0
  crowned : ∀ above c floor below, new = above ++ .call c floor :: below →
    ∃ front code, above = front ++ [.body code]

namespace Machine.Adds

variable {m m₁ m₂ : Machine} {new new' : List Frame}

/-- A machine whose frames, scopes and registers are left alone. -/
theorem nothing (frames : m₁.frames = m.frames) (saved : m₁.scopes.saved = m.scopes.saved)
    (registers : m₁.registers = m.registers) (openQuotes : m₁.openQuotes = m.openQuotes)
    (openParams : m₁.openParams = m.openParams) : m.Adds [] m₁ where
  frames := by rw [frames, List.nil_append]
  room fits := by
    rw [frames, show m₁.maxFrames = m.maxFrames from congrArg Registers.maxFrames registers]
    exact fits
  saved := saved
  registers := registers
  openQuotes := openQuotes
  openParams := openParams
  code := List.forall_mem_nil _
  order := by simp
  crowned := by simp

theorem refl (m : Machine) : m.Adds [] m := nothing rfl rfl rfl rfl rfl

/-- Calls may be added after what calls nothing. -/
theorem trans (first : m.Adds new m₁) (plain : callsIn new = 0) (second : m₁.Adds new' m₂) :
    m.Adds (new' ++ new) m₂ where
  frames := by rw [second.frames, first.frames, List.append_assoc]
  room fits := second.room (first.room fits)
  saved := by
    rw [callsIn_append, plain, Nat.add_zero, second.saved, ← first.saved, plain, List.drop_zero]
  registers := second.registers.trans first.registers
  openQuotes := second.openQuotes.trans first.openQuotes
  openParams := second.openParams.trans first.openParams
  code := List.forall_mem_append.2 ⟨second.code, first.code⟩
  order above height below split := by
    rcases append_split split with ⟨mid, upper, rfl⟩ | ⟨mid, rfl, lower⟩
    · rw [callsIn_append, plain, second.order above height mid upper]
    · exact first.order mid height below lower
  crowned above c floor below split := by
    rcases append_split split with ⟨mid, upper, _⟩ | ⟨mid, _, lower⟩
    · exact second.crowned above c floor mid upper
    · rw [lower, callsIn_append, callsIn_cons] at plain
      simp only [Frame.isCall, if_true] at plain
      omega

end Machine.Adds

theorem Operands.floors_of_popUntil {s rest : Operands} {wanted : Value → Bool} {above : List Value}
    (popped : s.popUntil wanted = some (above, rest)) : rest.floors = s.floors := by
  simp only [Operands.popUntil] at popped
  split at popped
  · cases popped
    rfl
  · cases popped

/-- Only operands have changed, above the same floors, and which containers are open. -/
structure Machine.Collects (m m' : Machine) : Prop where
  frames : m'.frames = m.frames
  scopes : m'.scopes = m.scopes
  floors : m'.operands.floors = m.operands.floors
  registers : m'.registers = m.registers

/-- Only operands have changed, above the same floors. -/
structure Machine.Undisturbed (m m' : Machine) : Prop extends m.Collects m' where
  openQuotes : m'.openQuotes = m.openQuotes
  openParams : m'.openParams = m.openParams

namespace Machine

variable {m m₁ m₂ : Machine}

theorem Collects.trans (first : m.Collects m₁) (second : m₁.Collects m₂) : m.Collects m₂ :=
  ⟨second.frames.trans first.frames, second.scopes.trans first.scopes,
    second.floors.trans first.floors, second.registers.trans first.registers⟩

theorem Undisturbed.refl (m : Machine) : m.Undisturbed m := ⟨⟨rfl, rfl, rfl, rfl⟩, rfl, rfl⟩

theorem Undisturbed.trans (first : m.Undisturbed m₁) (second : m₁.Undisturbed m₂) :
    m.Undisturbed m₂ :=
  ⟨first.toCollects.trans second.toCollects, second.openQuotes.trans first.openQuotes,
    second.openParams.trans first.openParams⟩

theorem Undisturbed.adds (kept : m.Undisturbed m₁) : m.Adds [] m₁ :=
  .nothing kept.frames (congrArg Scopes.saved kept.scopes) kept.registers kept.openQuotes
    kept.openParams

end Machine

/-- The operators that define something or put up a frame. -/
def Primitive.isLasting : Primitive → Bool
  | .attempt | .cond | .function | .condFunction | .loop | .iterate _ | .define | .dataDef => true
  | _ => false

namespace Exec

variable {α β : Type}

/-- What holds across each of two actions, and can be chained, holds across both. -/
theorem left_bind (holds : Machine → Machine → Prop) {x : Exec α} {f : α → Exec β}
    (trans : ∀ {m m₁ m₂ : Machine}, holds m m₁ → holds m₁ m₂ → holds m m₂)
    (first : ∀ m, holds m (left (x m))) (next : ∀ a m, holds m (left (f a m))) (m : Machine) :
    holds m (left ((x >>= f) m)) := by
  have before := first m
  simp only [Bind.bind, EStateM.bind]
  cases ran : x m with
  | error signal m' =>
    rw [ran] at before
    exact before
  | ok a m' =>
    rw [ran] at before
    exact trans before (next a m')

/-! ### Actions on operands -/

/-- Actions that handle operands and do nothing else, however they end. -/
def Quiet (x : Exec α) : Prop := ∀ m : Machine, m.Undisturbed (left (x m))

theorem Quiet.bind {x : Exec α} {f : α → Exec β} (first : Quiet x) (next : ∀ a, Quiet (f a)) :
    Quiet (x >>= f) :=
  left_bind Machine.Undisturbed .trans first next

theorem quiet_pure (a : α) : Quiet (pure a : Exec α) := fun m => .refl m

theorem quiet_throw (signal : Signal) : Quiet (throw signal : Exec α) := fun m => .refl m

theorem quiet_fail (e : RuntimeError) : Quiet (fail e : Exec α) := quiet_throw _

theorem quiet_get : Quiet (get : Exec Machine) := fun m => .refl m

theorem quiet_ofExcept (x : Except RuntimeError α) : Quiet (ofExcept x) := by
  cases x with
  | ok a => exact quiet_pure a
  | error e => exact quiet_fail e

theorem quiet_push (v : Value) : Quiet (push v) := fun _ => ⟨⟨rfl, rfl, rfl, rfl⟩, rfl, rfl⟩

theorem quiet_fresh : Quiet fresh := fun _ => ⟨⟨rfl, rfl, rfl, rfl⟩, rfl, rfl⟩

theorem quiet_setOrigin (origin : Origin) : Quiet (setOrigin origin) :=
  fun _ => ⟨⟨rfl, rfl, rfl, rfl⟩, rfl, rfl⟩

theorem quiet_pop : Quiet pop := by
  intro m
  simp only [pop]
  cases popped : m.operands.pop with
  | error e => exact .refl m
  | ok r =>
    refine ⟨⟨rfl, rfl, ?_, rfl⟩, rfl, rfl⟩
    simp only [Operands.pop] at popped
    split at popped
    · cases popped
    · split at popped <;> cases popped
      rfl

theorem quiet_popContainer (bracket : Bracket) : Quiet (popContainer bracket) := by
  intro m
  simp only [popContainer]
  split
  · next popped => exact ⟨⟨rfl, rfl, Operands.floors_of_popUntil popped, rfl⟩, rfl, rfl⟩
  · exact .refl m

theorem quiet_popAs {operator expected : String} {read? : Value → Option α} :
    Quiet (popAs operator expected read?) := by
  refine .bind quiet_pop fun v => ?_
  cases read? v with
  | some a => exact quiet_pure a
  | none => exact quiet_fail _

theorem quiet_peek (offset : Nat) : Quiet (peek offset) :=
  .bind quiet_get fun _ => quiet_ofExcept _

theorem quiet_pushArray (items : List Value) : Quiet (pushArray items) :=
  .bind quiet_fresh fun _ => quiet_push _

theorem quiet_unary (f : Value → Except RuntimeError Value) : Quiet (unary f) :=
  .bind quiet_pop fun _ => .bind (quiet_ofExcept _) fun _ => quiet_push _

theorem quiet_binary (f : Value → Value → Except RuntimeError Value) : Quiet (binary f) :=
  .bind quiet_pop fun _ => .bind quiet_pop fun _ => .bind (quiet_ofExcept _) fun _ => quiet_push _

theorem quiet_logical {p : Primitive} {f : Bool → Bool → Bool} : Quiet (logical p f) :=
  .bind quiet_popAs fun _ => .bind quiet_popAs fun _ => quiet_push _

theorem quiet_swap : Quiet swap :=
  .bind quiet_pop fun _ => .bind quiet_pop fun _ => .bind (quiet_push _) fun _ => quiet_push _

theorem quiet_rot : Quiet rot :=
  .bind quiet_pop fun _ => .bind quiet_pop fun _ => .bind quiet_pop fun _ =>
    .bind (quiet_push _) fun _ => .bind (quiet_push _) fun _ => quiet_push _

theorem quiet_clear : Quiet clear := fun _ => ⟨⟨rfl, rfl, rfl, rfl⟩, rfl, rfl⟩

theorem quiet_assertion (kind : AssertionKind) : Quiet (assertion kind) :=
  .bind quiet_pop fun _ => .bind quiet_pop fun _ => .bind (quiet_ofExcept _) fun _ =>
    fun _ => ⟨⟨rfl, rfl, rfl, rfl⟩, rfl, rfl⟩

theorem quiet_popPairs (operator : String) : Quiet (popPairs operator) := by
  refine .bind quiet_pop fun v => ?_
  split
  · exact .bind (quiet_ofExcept _) fun _ => quiet_pure _
  · exact quiet_fail _

theorem quiet_popSource (operator : String) : Quiet (popSource operator) := by
  refine .bind quiet_pop fun v => ?_
  split
  · exact .bind quiet_popAs fun _ => quiet_pure _
  · exact quiet_pure _
  · exact quiet_pure _
  · exact quiet_fail _

theorem quiet_popSignature? : Quiet popSignature? := by
  refine .bind quiet_get fun m => ?_
  split
  · exact .bind quiet_pop fun _ => quiet_pure _
  · exact quiet_pure _

theorem quiet_close {name : Option String} {body : List Value} {signature : Option Signature} :
    Quiet (close name body signature) :=
  .bind quiet_fresh fun _ => .bind quiet_get fun _ => quiet_pure _

theorem quiet_ifElse : Quiet ifElse := by
  refine .bind quiet_popAs fun _ => .bind quiet_get fun _ => ?_
  split
  · refine .bind quiet_pop fun _ => .bind quiet_popAs fun _ => ?_
    split <;> exact quiet_pure _
  · refine .bind quiet_popAs fun _ => ?_
    split <;> exact quiet_pure _

theorem quiet_breakIf : Quiet breakIf := by
  refine .bind quiet_popAs fun _ => ?_
  split
  · exact quiet_throw _
  · exact quiet_pure _

theorem quiet_tailCall : Quiet tailCall := by
  refine .bind quiet_pop fun v => ?_
  split
  · exact quiet_throw _
  · refine .bind quiet_get fun m => ?_
    split
    · exact quiet_throw _
    · exact quiet_fail _
    · exact quiet_fail _
  · exact quiet_fail _

theorem quiet_sleep : Quiet sleep := by
  refine .bind quiet_popAs fun _ => ?_
  split
  · exact quiet_fail _
  · exact quiet_throw _

theorem quiet_takeArguments (wanted : Nat) : Quiet (takeArguments wanted) := by
  intro m
  rcases takeArguments_cases wanted m with ⟨_, failed⟩ | ⟨_, _, taken, ⟨_, rfl⟩, _⟩
  · rw [failed]
    exact .refl m
  · rw [taken]
    exact ⟨⟨rfl, rfl, rfl, rfl⟩, rfl, rfl⟩

theorem quiet_collectInto {types : Scope} {params : List Param} {values : List Value} :
    Quiet (collectInto types params values) := by
  induction params generalizing values with
  | nil => exact quiet_pure _
  | cons p params ih =>
    cases values with
    | nil => exact quiet_pure _
    | cons v values =>
      exact .bind quiet_get fun _ => .bind (quiet_ofExcept _) fun _ => .bind ih fun _ =>
        quiet_pure _

theorem quiet_checkField {field : Field} {types : Scope} {v : Value} :
    Quiet (checkField field types v) := by
  unfold checkField
  split
  · exact quiet_pure _
  · refine .bind quiet_get fun _ => .bind (quiet_ofExcept _) fun _ => ?_
    split
    · exact quiet_pure _
    · exact quiet_fail _

theorem quiet_writeField {items : List Value} {field : Field} {types : Scope} {v : Value} :
    Quiet (writeField items field types v) :=
  .bind quiet_checkField fun _ => quiet_pushArray _

theorem quiet_pushElement (source : Source) (index : Nat) (withIndex : Bool) :
    Quiet (pushElement source index withIndex) := by
  refine .bind (quiet_push _) fun _ => ?_
  split
  · exact quiet_push _
  · exact quiet_pure _

/-- The field of an update is written if its code has left one value. -/
theorem quiet_writeLeft {items : List Value} {field : Field} {types : Scope} {left : Nat} :
    Quiet (if left = 1 then do writeField items field types (← pop)
      else fail (.updateCount field.owner field.name left)) := by
  split
  · exact .bind quiet_pop fun _ => quiet_writeField
  · exact quiet_fail _

theorem Quiet.plain {x : Exec Unit} (quiet : Quiet x) : Quiet (Exec.plain x) :=
  quiet.bind fun _ => quiet_pure _

theorem quiet_primitive {p : Primitive} (passing : p.isLasting = false) : Quiet (primitive p) := by
  cases p with
  | attempt | cond | function | condFunction | loop | iterate _ | define | dataDef => cases passing
  | ifElse => exact quiet_ifElse
  | call => exact .bind quiet_popAs fun _ => quiet_pure _
  | lambda =>
    exact .plain (.bind quiet_popAs fun _ => .bind quiet_popSignature? fun _ =>
      .bind quiet_close fun _ => quiet_push _)
  | «break» => exact quiet_throw _
  | breakIf => exact .plain quiet_breakIf
  | tailCall => exact .plain quiet_tailCall
  | dup => exact .plain (.bind (quiet_peek _) fun _ => quiet_push _)
  | pop => exact .plain (.bind quiet_pop fun _ => quiet_pure _)
  | swap => exact .plain quiet_swap
  | copySecond => exact .plain (.bind (quiet_peek _) fun _ => quiet_push _)
  | rot => exact .plain quiet_rot
  | clear => exact .plain quiet_clear
  | depth => exact .plain (.bind quiet_get fun _ => quiet_push _)
  | arithmetic op => exact .plain (quiet_binary _)
  | neg => exact .plain (quiet_unary _)
  | equal => exact .plain (quiet_binary _)
  | notEqual => exact .plain (quiet_binary _)
  | compare c => exact .plain (quiet_binary _)
  | not => exact .plain (.bind quiet_popAs fun _ => quiet_push _)
  | and => exact .plain quiet_logical
  | or => exact .plain quiet_logical
  | append => exact .plain (.bind quiet_fresh fun _ => quiet_binary _)
  | length => exact .plain (quiet_unary _)
  | nth => exact .plain (.bind quiet_popAs fun _ => quiet_unary _)
  | concat => exact .plain (.bind quiet_fresh fun _ => quiet_binary _)
  | raise => exact .plain (.bind quiet_popAs fun _ => quiet_fail _)
  | isError => exact .plain (quiet_unary _)
  | errorMessage => exact .plain (quiet_unary _)
  | sleep => exact .plain quiet_sleep
  | assertion kind => exact .plain (quiet_assertion kind)

/-- What operations do beyond handling operands is done by a few operators and by updates. -/
theorem quiet_operation (o : Operation Value) :
    Quiet (operation o) ∨ (∃ p, p.isLasting = true ∧ operation o = primitive p) ∨
      ∃ name field types, operation o = beginUpdate name field types := by
  cases o with
  | data d =>
    obtain ⟨name, action⟩ := d
    cases action with
    | construct type fields types =>
      exact .inl (.plain (.bind (.bind (quiet_takeArguments _) fun _ => quiet_collectInto) fun _ =>
        quiet_pushArray _))
    | get field => exact .inl (.plain (.bind quiet_popAs fun _ => quiet_push _))
    | set field types =>
      exact .inl (.plain (.bind quiet_pop fun _ => .bind quiet_popAs fun _ => quiet_writeField))
    | update field types => exact .inr (.inr ⟨name, field, types, rfl⟩)
    | isInstance type => exact .inl (.plain (quiet_unary _))
    | isVariant variants => exact .inl (.plain (quiet_unary _))
  | builtin b =>
    obtain ⟨name, action⟩ := b
    cases action with
    | primitive p =>
      cases lasting : p.isLasting with
      | true => exact .inr (.inl ⟨p, lasting, rfl⟩)
      | false => exact .inl (quiet_primitive lasting)
    | await pending => exact .inl (quiet_throw _)
    | reply r =>
      cases r with
      | value v => exact .inl (quiet_push v).plain
      | nothing => exact .inl (quiet_pure ()).plain
      | failure e => exact .inl (quiet_fail e).plain

/-! ### Actions that add frames -/

/-- Actions that call nothing. -/
def Works (x : Exec α) : Prop :=
  ∀ m : Machine, ∃ new, m.Adds new (left (x m)) ∧ callsIn new = 0

/-- What an action on `m` comes to that may call something, but only at its end. -/
inductive Launched (m : Machine) : EStateM.Result Signal Machine α → Prop
  | worked {new : List Frame} {x : EStateM.Result Signal Machine α} :
      m.Adds new (left x) → callsIn new = 0 → Launched m x
  | called {new : List Frame} {n m' : Machine} {c : Closure Value} {a : α} :
      m.Adds new n → callsIn new = 0 → enter c n = .ok () m' → Launched m (.ok a m')

/-- Actions that may end by calling something. -/
def Launches (x : Exec α) : Prop := ∀ m : Machine, Launched m (x m)

theorem Quiet.works {x : Exec α} (quiet : Quiet x) : Works x := fun m => ⟨[], (quiet m).adds, rfl⟩

theorem Works.launches {x : Exec α} (works : Works x) : Launches x := by
  intro m
  obtain ⟨new, adds, plain⟩ := works m
  exact .worked adds plain

/-- What is launched after work that calls nothing. -/
theorem Launched.after {m m₁ : Machine} {new : List Frame} {x : EStateM.Result Signal Machine α}
    (adds : m.Adds new m₁) (plain : callsIn new = 0) (launched : Launched m₁ x) :
    Launched m x := by
  have none {new' : List Frame} (plain' : callsIn new' = 0) : callsIn (new' ++ new) = 0 := by
    rw [callsIn_append, plain, plain']
  cases launched with
  | worked adds' plain' => exact .worked (adds.trans plain adds') (none plain')
  | called adds' plain' entered => exact .called (adds.trans plain adds') (none plain') entered

theorem Works.then {x : Exec α} {f : α → Exec β} (first : Works x) (next : ∀ a, Launches (f a)) :
    Launches (x >>= f) := by
  intro m
  obtain ⟨new, adds, plain⟩ := first m
  simp only [Bind.bind, EStateM.bind]
  cases ran : x m with
  | error signal m' =>
    rw [ran] at adds
    exact .worked adds plain
  | ok a m' =>
    rw [ran] at adds
    exact (next a m').after adds plain

theorem Works.bind {x : Exec α} {f : α → Exec β} (first : Works x) (next : ∀ a, Works (f a)) :
    Works (x >>= f) := by
  intro m
  obtain ⟨new, adds, plain⟩ := first m
  simp only [Bind.bind, EStateM.bind]
  cases ran : x m with
  | error signal m' =>
    rw [ran] at adds
    exact ⟨new, adds, plain⟩
  | ok a m' =>
    rw [ran] at adds
    obtain ⟨new', adds', plain'⟩ := next a m'
    exact ⟨new' ++ new, adds.trans plain adds', by rw [callsIn_append, plain, plain']⟩

theorem works_modify {f : Machine → Machine} (adds : ∀ m : Machine, m.Adds [] (f m)) :
    Works (modify f : Exec Unit) :=
  fun m => ⟨[], adds m, rfl⟩

theorem works_change {f : Machine → Except RuntimeError Machine}
    (adds : ∀ m m', f m = .ok m' → m.Adds [] m') : Works (change f) := by
  intro m
  simp only [change]
  cases changed : f m with
  | ok m' => exact ⟨[], adds m m' changed, rfl⟩
  | error e => exact ⟨[], .refl m, rfl⟩

theorem works_define {name : String} {v : Value} : Works (define name v) :=
  works_change fun m m' defined => by
    unfold Machine.define at defined
    split at defined <;> cases defined
    exact .nothing rfl rfl rfl rfl rfl

theorem works_forbid : Works forbid := works_modify fun _ => .nothing rfl rfl rfl rfl rfl

/-- A frame that stands neither for a call nor for a program. -/
theorem works_pushFrame {f : Frame} (call : f.isCall = false) (program : f.isProgram = false) :
    Works (pushFrame f) := by
  intro m
  simp only [pushFrame]
  split
  · exact ⟨[], .refl m, rfl⟩
  · next room =>
    have plain : callsIn [f] = 0 := by simp [call]
    have order (above : List Frame) (height : Nat) (below : List Frame)
        (split : [f] = above ++ .attempt height :: below) : callsIn below = 0 := by
      have lengths := congrArg List.length split
      simp only [List.length_append, List.length_cons, List.length_nil] at lengths
      rw [List.eq_nil_of_length_eq_zero (show below.length = 0 by omega)]
      rfl
    have other (above : List Frame) (c : Closure Value) (floor : Nat) (below : List Frame)
        (split : [f] = above ++ .call c floor :: below) :
        ∃ front code, above = front ++ [.body code] := by
      have member : .call c floor ∈ [f] := by simp [split]
      rw [← List.mem_singleton.1 member] at call
      cases call
    refine ⟨[f], ⟨rfl, fun _ => Nat.not_le.1 room, ?_, rfl, rfl, rfl,
      List.forall_mem_singleton.2 program, order, other⟩, plain⟩
    rw [plain]
    rfl

theorem works_plain {x : Exec Unit} (works : Works x) : Works (plain x) :=
  works.bind fun _ => (quiet_pure _).works

theorem works_dataDef : Works dataDef := by
  refine quiet_pop.works.bind fun _ => quiet_popAs.works.bind fun _ =>
    (quiet_ofExcept _).works.bind fun decl => works_change fun m m' declared => ?_
  simp only [Machine.declare] at declared
  split at declared <;> cases declared
  exact .nothing rfl rfl rfl rfl rfl

theorem works_lasting {p : Primitive} (lasting : p.isLasting = true) : Works (primitive p) := by
  cases p with
  | attempt =>
    exact quiet_popAs.works.bind fun _ => quiet_get.works.bind fun _ =>
      (works_pushFrame rfl rfl).bind fun _ => (quiet_pure _).works
  | cond => exact works_plain ((quiet_popPairs _).works.bind fun _ => works_pushFrame rfl rfl)
  | function =>
    exact works_plain (quiet_popAs.works.bind fun _ => quiet_popSignature?.works.bind fun _ =>
      quiet_popAs.works.bind fun _ => quiet_close.works.bind fun _ => works_define)
  | condFunction =>
    exact works_plain ((quiet_popPairs _).works.bind fun _ =>
      quiet_popSignature?.works.bind fun _ => quiet_popAs.works.bind fun _ =>
        quiet_get.works.bind fun _ => quiet_close.works.bind fun _ => works_define)
  | loop => exact works_plain (quiet_popAs.works.bind fun _ => works_pushFrame rfl rfl)
  | iterate withIndex =>
    exact works_plain (quiet_popAs.works.bind fun _ => (quiet_popSource _).works.bind fun _ =>
      works_pushFrame rfl rfl)
  | define =>
    exact works_plain (quiet_popAs.works.bind fun _ => quiet_pop.works.bind fun _ => works_define)
  | dataDef => exact works_plain works_dataDef
  | _ => cases lasting

theorem works_beginUpdate (operator : String) (field : Field) (types : Scope) :
    Works (beginUpdate operator field types) :=
  quiet_popAs.works.bind fun _ => quiet_popAs.works.bind fun _ => quiet_get.works.bind fun _ =>
    (works_pushFrame rfl rfl).bind fun _ => works_forbid.bind fun _ =>
      ((quiet_push _).bind fun _ => quiet_pure _).works

theorem works_operation (o : Operation Value) : Works (operation o) := by
  rcases quiet_operation o with quiet | ⟨p, lasting, same⟩ | ⟨name, field, types, same⟩
  · exact quiet.works
  · exact same ▸ works_lasting lasting
  · exact same ▸ works_beginUpdate name field types

theorem works_bindParameters (c : Closure Value) : Works (bindParameters c) := by
  intro m
  have absorbed := absorbed_bindParameters c m
  refine ⟨[], ?_, rfl⟩
  generalize bindParameters c m = x at absorbed ⊢
  cases x with
  | ok _ m' =>
    obtain ⟨_, _, ⟨_, rfl⟩, rfl⟩ := absorbed
    exact .nothing rfl rfl rfl rfl rfl
  | error signal m' =>
    obtain ⟨⟨_, _, _, ⟨_, rfl⟩, rfl⟩, _⟩ := absorbed
    exact .nothing rfl rfl rfl rfl rfl

/-! ### Calls and code -/

/-- The frames of a closure: its code stands on its call. -/
theorem code_above_call {c d : Closure Value} {code : List Value} {floor floor' : Nat}
    {above below : List Frame}
    (split : [.body code, .call c floor] = above ++ .call d floor' :: below) :
    ∃ front code, above = front ++ [.body code] := by
  rcases List.cons_eq_append_iff.1 split with ⟨_, other⟩ | ⟨above₁, rfl, lower⟩
  · cases other
  · rcases List.cons_eq_append_iff.1 lower with ⟨rfl, _⟩ | ⟨above₂, _, lowest⟩
    · exact ⟨[], code, rfl⟩
    · simp at lowest

/-- A call that has been made adds frames for the closure; one that fails adds no call. -/
theorem adds_enter (c : Closure Value) (m : Machine) :
    ∃ new, m.Adds new (left (enter c m)) ∧
      ∀ signal m', enter c m = .error signal m' → callsIn new = 0 := by
  let entered : Machine := { m with scopes := m.scopes.enter c.activation }
  obtain ⟨_, adds, _⟩ := works_bindParameters c entered
  have steady := steady_bindParameters c entered
  rcases enter_cases c m with ⟨_, refused⟩ | ⟨room, ⟨m', bound, ran⟩ | ⟨_, m', unbound, ran⟩⟩
  · rw [refused]
    exact ⟨[], .refl m, fun _ _ _ => rfl⟩
  · rw [bound] at adds steady
    rw [ran]
    obtain ⟨frames, saved⟩ : entered.Level m' := steady
    have limit : m'.maxFrames = m.maxFrames := congrArg Registers.maxFrames adds.registers
    have order (above : List Frame) (height : Nat) (below : List Frame)
        (split : [.body c.body, .call c m'.operands.count] = above ++ .attempt height :: below) :
        callsIn below = 0 := by
      have member : .attempt height ∈ [Frame.body c.body, .call c m'.operands.count] := by
        simp [split]
      simp at member
    refine ⟨[.body c.body, .call c m'.operands.count], ⟨?_, ?_, ?_, adds.registers,
      adds.openQuotes, adds.openParams, ?_, order, fun _ _ _ _ => code_above_call⟩, ?_⟩
    · change .body c.body :: .call c m'.operands.count :: m'.frames.toList = _
      rw [frames]
      rfl
    · intro _
      change m'.frames.size + 2 ≤ m'.maxFrames
      rw [frames, limit]
      exact room
    · change (m'.scopes.saved).drop 1 = _
      rw [saved]
      rfl
    · exact List.forall_mem_cons.2 ⟨rfl, List.forall_mem_singleton.2 rfl⟩
    · intro signal failed ended
      cases ended
  · rw [unbound] at adds steady
    rw [ran]
    obtain ⟨frames, saved⟩ : entered.Level m' := steady.1
    have back : m'.scopes.leave.saved = m.scopes.saved := by
      have saved : m'.scopes.saved = m.scopes.active :: m.scopes.saved := saved
      rw [Scopes.leave, saved]
    exact ⟨[], .nothing frames back adds.registers adds.openQuotes adds.openParams,
      fun _ _ _ => rfl⟩

theorem launches_enter (c : Closure Value) : Launches (enter c) := by
  intro m
  obtain ⟨new, adds, failed⟩ := adds_enter c m
  cases ran : enter c m with
  | ok a m' => exact .called (.refl m) rfl ran
  | error signal m' =>
    have plain := failed signal m' ran
    rw [ran] at adds
    exact .worked adds plain

theorem Launched.adds {m : Machine} {x : EStateM.Result Signal Machine α}
    (launched : Launched m x) : ∃ new, m.Adds new (left x) := by
  cases launched with
  | worked adds _ => exact ⟨_, adds⟩
  | @called new n m' c a adds plain entered =>
    obtain ⟨new', adds', _⟩ := adds_enter c n
    rw [entered] at adds'
    exact ⟨new' ++ new, adds.trans plain adds'⟩

/-- The induction is on the operands, as an operation that hands over to a value has taken one. -/
theorem launches_invoke (v : Value) : Launches (invoke v) := by
  intro m
  induction size : m.operands.count using Nat.strongRecOn generalizing v m with
  | _ size ih =>
    cases v with
    | quote id code =>
      rw [invoke]
      exact (works_pushFrame rfl rfl).launches m
    | closure c =>
      rw [invoke]
      exact launches_enter c m
    | op o origin =>
      obtain ⟨new, adds, plain⟩ := works_operation o m
      rw [Parallel.invoke_op]
      simp only [Bind.bind, EStateM.bind]
      cases ran : operation o m with
      | error signal m' =>
        rw [ran] at adds
        exact .worked adds plain
      | ok handed m' =>
        rw [ran] at adds
        cases handed with
        | none => exact .worked adds plain
        | some next =>
          have taken := (tame_operation o _ _ _ ran).1
          exact (ih _ (by omega) next m' rfl).after adds plain
    | array id items =>
      simp only [invoke]
      exact (quiet_fail _).works.launches m
    | _ =>
      rw [Parallel.invoke_of_isPlain rfl]
      exact (quiet_fail _).works.launches m

theorem launches_resolve (name : String) : Launches (resolve name) := by
  refine quiet_get.works.then fun m => ?_
  split
  · exact launches_invoke _
  · split
    · exact launches_enter _
    · exact launches_invoke _
    · exact (quiet_push _).works.launches
    · exact (quiet_fail _).works.launches

theorem quiet_closeArray : Quiet (closeContainer .array) :=
  .bind (quiet_popContainer _) fun _ => .bind (quiet_pure ()) fun _ => quiet_pushArray _

theorem launches_value (v : Value) : Launches (value v) := by
  unfold value
  split
  · exact quiet_closeArray.works.launches
  · exact (quiet_setOrigin _).works.then fun _ => launches_resolve _
  · exact (quiet_setOrigin _).works.then fun _ => launches_invoke _
  · exact (quiet_push _).works.launches

end Exec

/-! ### Tokens -/

namespace Exec

variable {α β : Type}

/-- Actions that run nothing. -/
def Inert (x : Exec α) : Prop := ∀ m : Machine, m.Collects (left (x m))

theorem Quiet.inert {x : Exec α} (quiet : Quiet x) : Inert x := fun m => (quiet m).toCollects

theorem Inert.bind {x : Exec α} {f : α → Exec β} (first : Inert x) (next : ∀ a, Inert (f a)) :
    Inert (x >>= f) :=
  left_bind Machine.Collects .trans first next

theorem inert_countOpen (bracket : Bracket) (count : Nat → Nat) :
    Inert (countOpen bracket count) := by
  cases bracket <;> exact fun _ => ⟨rfl, rfl, rfl, rfl⟩

theorem inert_closeContainer (bracket : Bracket) : Inert (closeContainer bracket) := by
  refine (quiet_popContainer bracket).inert.bind fun items => (inert_countOpen _ _).bind fun _ => ?_
  refine Quiet.inert ?_
  cases bracket with
  | array => exact quiet_pushArray _
  | quote => exact .bind quiet_fresh fun _ => quiet_push _
  | params => exact .bind (quiet_ofExcept _) fun _ => quiet_push _

/-- Only a name runs something, and only if no container is open. -/
theorem token_collects (t : Token) (m : Machine) :
    m.Collects (left (token t m)) ∨ (m.isCollecting = false ∧ Launched m (token t m)) := by
  have origin := (quiet_setOrigin t.origin).inert
  obtain ⟨lexeme, place⟩ := t
  cases lexeme with
  | name text =>
    let placed : Machine := { m with origin := place }
    have asked : token ⟨.name text, place⟩ m =
        (if placed.isCollecting then push (deferred placed text place) else resolve text) placed :=
      rfl
    by_cases collecting : placed.isCollecting = true
    · rw [asked, if_pos collecting]
      exact .inl ⟨rfl, rfl, rfl, rfl⟩
    · have noted : m.Adds [] placed := .nothing rfl rfl rfl rfl rfl
      rw [asked, if_neg collecting]
      exact .inr ⟨Bool.not_eq_true _ ▸ collecting, (launches_resolve text placed).after noted rfl⟩
  | opening bracket =>
    exact .inl ((origin.bind fun _ => (inert_countOpen _ _).bind fun _ => (quiet_push _).inert) m)
  | closing bracket =>
    refine .inl ((origin.bind fun _ => quiet_get.inert.bind fun seen => ?_) m)
    split
    · exact (quiet_push _).inert
    · exact inert_closeContainer bracket
  | _ => exact .inl ((origin.bind fun _ => (quiet_push _).inert) m)

end Exec

end Catena
