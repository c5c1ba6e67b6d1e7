import Catena.Proofs.Accessors
import Catena.Proofs.Breaking
import Catena.Proofs.Returning

set_option autoImplicit false

/-!
Tail calls in constant space. Whatever the running closure has set up is given up, and the closure
that takes its place stands where it stood: on the same frames, with the same floor and the same
saved scopes. So an activation that goes on by tail calls does not grow.
-/

namespace Catena

/-! ### Arguments that bind -/

/-- Each argument fits its parameter, in a scope that has those before it. -/
def FitInto : Scope → List Param → List Value → Prop
  | _, [], [] => True
  | scope, p :: params, v :: values =>
    p.check scope scope v = .ok () ∧ FitInto (scope.insert p.name v) params values
  | _, _, _ => False

def Closure.params (c : Closure Value) : List Param := c.signature.elim [] Signature.params

theorem Closure.arity_eq (c : Closure Value) : c.arity = c.params.length := by
  unfold arity params
  cases c.signature <;> rfl

/-- The parameters of the closure bind to the arguments. -/
def Closure.Accepts (c : Closure Value) (args : List Value) : Prop :=
  FitInto c.activation c.params args

/-- The scope of the closure with its parameters bound. -/
def Closure.scopeWith (c : Closure Value) (args : List Value) : Scope :=
  c.activation.insertAll ((c.params.map Param.name).zip args)

theorem FitInto.length_eq {scope : Scope} {params : List Param} {values : List Value}
    (fits : FitInto scope params values) : values.length = params.length := by
  induction params generalizing scope values with
  | nil =>
    cases values with
    | nil => rfl
    | cons _ _ => cases fits
  | cons p params ih =>
    cases values with
    | nil => cases fits
    | cons v values => rw [List.length_cons, List.length_cons, ih fits.2]

namespace Exec

/-- As many arguments as parameters are bound if they fit, and otherwise an error is thrown. -/
theorem bindInto_cases {params : List Param} {values : List Value}
    (count : values.length = params.length) (m : Machine) :
    (FitInto m.scopes.active params values ∧
      bindInto params values m = .ok ()
        { m with
          scopes := ⟨m.scopes.active.insertAll ((params.map Param.name).zip values),
            m.scopes.saved⟩ }) ∨
    (¬ FitInto m.scopes.active params values ∧
      ∃ e m', bindInto params values m = .error (.error e) m') := by
  induction params generalizing values m with
  | nil =>
    obtain rfl := List.eq_nil_of_length_eq_zero count
    exact .inl ⟨trivial, rfl⟩
  | cons p params ih =>
    cases values with
    | nil => cases count
    | cons v values =>
      cases checked : p.check m.scopes.active m.scopes.active v with
      | error e =>
        refine .inr ⟨fun fits => ?_, e, m, bindInto_of_refused checked⟩
        cases checked.symm.trans fits.1
      | ok _ =>
        rw [bindInto_of_accepted checked]
        rcases ih (Nat.succ.inj count) { m with scopes := m.scopes.put p.name v } with
          ⟨fits, ran⟩ | ⟨other, failed⟩
        · exact .inl ⟨⟨checked, fits⟩, ran⟩
        · exact .inr ⟨fun fits => other fits.2, failed⟩

end Exec

/-- A closure without a signature is one without parameters. -/
theorem Exec.bindParameters_eq (c : Closure Value) (m : Machine) :
    bindParameters c m = (takeArguments c.arity >>= bindInto c.params) m := by
  unfold bindParameters Closure.arity Closure.params
  cases c.signature with
  | some signature => rfl
  | none =>
    simp only [Option.elim_none, Bind.bind, EStateM.bind,
      takeArguments_of_accessible (Nat.zero_le m.operands.accessible)]
    rfl

/-- The parameters of a closure bind to the topmost operands above the floor, or to nothing. -/
theorem Exec.bindParameters_cases {m : Machine} {c : Closure Value}
    (active : m.scopes.active = c.activation)
    (grounded : m.operands.floor ≤ m.operands.count) :
    (∃ X args, m.operands.toList = X ++ args ∧ m.operands.floor ≤ X.length ∧ c.Accepts args ∧
      bindParameters c m = .ok ()
        { m with
          operands := ⟨.ofList X.reverse, m.operands.floors⟩
          scopes := ⟨c.scopeWith args, m.scopes.saved⟩ }) ∨
    ((∀ X args, m.operands.toList = X ++ args → m.operands.floor ≤ X.length → ¬ c.Accepts args) ∧
      ∃ e m', bindParameters c m = .error (.error e) m') := by
  rw [bindParameters_eq]
  simp only [Bind.bind, EStateM.bind]
  rcases takeArguments_cases c.arity m with
    ⟨few, failed⟩ | ⟨args, m₁, taken, spends, split, count⟩
  · rw [failed]
    refine .inr ⟨fun X args operands reach accepts => ?_, _, _, rfl⟩
    have lengths := congrArg List.length operands
    rw [Operands.length_toList, List.length_append, accepts.length_eq, ← c.arity_eq] at lengths
    rw [Operands.accessible] at few
    omega
  · have reach : m.operands.floor ≤ m₁.operands.toList.length := by
      have lengths := congrArg List.length split
      have enough := spends.accessible
      rw [Operands.length_toList, List.length_append, count] at lengths
      rw [Operands.accessible] at enough
      omega
    obtain rfl := spends.machine
    have left : m.operands.spend c.arity =
        ⟨.ofList (m.operands.spend c.arity).toList.reverse, m.operands.floors⟩ :=
      congrArg (Operands.mk · m.operands.floors) (Stack.ext (List.reverse_reverse _).symm)
    rw [taken]
    rcases bindInto_cases (count.trans c.arity_eq) { m with operands := m.operands.spend c.arity }
      with ⟨fits, ran⟩ | ⟨other, failed⟩
    · have accepts : FitInto m.scopes.active c.params args := fits
      rw [active] at accepts
      refine .inl ⟨_, args, split, reach, accepts, ran.trans ?_⟩
      rw [← left, Closure.scopeWith, ← active]
    · refine .inr ⟨fun X' args' split' _ accepts => other ?_, failed⟩
      obtain ⟨_, rfl⟩ := List.append_inj' (split.symm.trans split')
        ((count.trans c.arity_eq).trans accepts.length_eq.symm)
      change FitInto m.scopes.active c.params args
      rwa [active]

/-! ### Putting a closure in the place of the running one -/

/-- The machine after a tail call of `c` with `args`, which are gone from the operands. The running
closure stood on `below`, with this floor. -/
def Machine.replacedBy (m : Machine) (c : Closure Value) (floor : Nat) (below : List Frame)
    (X args : List Value) : Machine :=
  { m with
    control := .none
    frames := .ofList (.body c.body :: .call c floor :: below)
    operands := ⟨.ofList X.reverse, floor :: floorsOf below⟩
    scopes := ⟨c.scopeWith args, m.scopes.saved⟩ }

/-- A tail call of `c` has been made, and the running closure stands on `below`, with this floor. -/
structure Machine.TailCalls (c : Closure Value) (floor : Nat) (below : List Frame) (m : Machine) :
    Prop where
  control : m.control = .tailCall c
  frames : ∃ above d, m.frames.toList = above ++ .call d floor :: below ∧
    ∀ f ∈ above, f.isCall = false

/-- The operands are `X` with `args` on top, which the parameters of `c` bind to. All of them are
above the floor. -/
structure Machine.Offers (c : Closure Value) (floor : Nat) (X args : List Value) (m : Machine) :
    Prop where
  operands : m.operands.toList = X ++ args
  reach : floor ≤ X.length
  accepts : c.Accepts args

theorem Frame.callFloor?_of_isCall {f : Frame} (other : f.isCall = false) :
    f.callFloor? = none := by
  cases f <;> first | rfl | cases other

theorem callsIn_of_isCall {frames : List Frame} (none : ∀ f ∈ frames, f.isCall = false) :
    callsIn frames = 0 :=
  List.countP_eq_zero.2 fun f member => by simp [none f member]

section

variable {m : Machine} {c : Closure Value} {floor : Nat} {below : List Frame}

/-- A tail call, in terms of the machine that is left when the frames above the running closure have
been given up and the new scope is in place. -/
theorem Aligned.replaceCall_eq {d : Closure Value} {above : List Frame} (aligned : Aligned m)
    (frames : m.frames.toList = above ++ .call d floor :: below)
    (innermost : ∀ f ∈ above, f.isCall = false) (c : Closure Value) :
    Exec.replaceCall c { m with control := .none } =
      (do
        Exec.bindParameters c
        Exec.setFrames (.ofList (.body c.body :: .call c floor :: below)))
      { m with
        control := .none
        frames := .ofList (.call d floor :: below)
        operands := ⟨m.operands.items, floor :: floorsOf below⟩
        scopes := ⟨c.activation, m.scopes.saved⟩ } := by
  have calm : Aligned { m with control := .none } :=
    ⟨aligned.floors, aligned.layered, aligned.covered, aligned.saved⟩
  obtain ⟨lower, split, under⟩ := Stack.split?_of_append frames
    (fun f member => Frame.callFloor?_of_isCall (innermost f member)) (by rfl)
  have caller : m.scopes.saved ≠ [] := by
    have depth := aligned.saved
    rw [frames, callsIn_append, callsIn_cons] at depth
    rw [← List.length_pos_iff, depth]
    simp only [Frame.isCall, if_true]
    omega
  have here : m.frames.drop above.length = .ofList (.call d floor :: below) := by
    refine Stack.ext ?_
    rw [Stack.toList_drop, frames, List.drop_left, Stack.toList_ofList]
  rw [Exec.replaceCall_eq (m := { m with control := .none }) split,
    calm.releaseAll_above frames, callsIn_of_isCall innermost]
  simp only [Scopes.leaveMany]
  rw [Scopes.enter_leave caller, here]
  obtain rfl : lower = .ofList below := Stack.ext under
  rfl

theorem Aligned.step_of_tailCall (aligned : Aligned m) (calls : m.TailCalls c floor below) :
    (∃ X args, m.Offers c floor X args ∧ m.step = (m.replacedBy c floor below X args).proceed) ∨
    ((∀ X args, ¬ m.Offers c floor X args) ∧ ∃ (thrown : Machine) (e : LocatedError),
      m.step = thrown.raiseError e) := by
  obtain ⟨above, d, frames, innermost⟩ := calls.frames
  have replaced := aligned.replaceCall_eq frames innermost c
  generalize entered : ({ m with
    control := .none
    frames := .ofList (.call d floor :: below)
    operands := ⟨m.operands.items, floor :: floorsOf below⟩
    scopes := ⟨c.activation, m.scopes.saved⟩ } : Machine) = n at replaced
  have grounded : n.operands.floor ≤ n.operands.count := by
    have layered := aligned.layered
    have covered := aligned.covered
    rw [frames] at layered covered
    have reach := Nat.le_trans layered.of_append.2 covered
    rw [floorAbove_cons] at reach
    rw [← entered]
    exact reach
  simp only [Machine.step, calls.control, replaced, Bind.bind, EStateM.bind]
  rcases Exec.bindParameters_cases (by rw [← entered]) grounded with
    ⟨X, args, operands, reach, accepts, bound⟩ | ⟨other, e, n', failed⟩
  · subst entered
    refine .inl ⟨X, args, ⟨operands, reach, accepts⟩, ?_⟩
    rw [bound]
    rfl
  · subst entered
    have others X args (offers : m.Offers c floor X args) : False :=
      other X args offers.operands offers.reach offers.accepts
    refine .inr ⟨others, n', ?_⟩
    rw [failed]
    exact ⟨_, rfl⟩

end

/-! ### One activation, many tail calls -/

/-- What stands below the base of two machines is known from the frames of one. -/
theorem Standing.base_eq {S : Base} {p : Pairing} {f g f' : Frame} {m n : Machine}
    {own lower : List Frame} (standing : Standing S p f g m n)
    (frames : m.frames.toList = own ++ f' :: lower) (depth : lower.length = S.lower.length) :
    lower = S.lower ∧ m.scopes.saved.drop (callsIn own) = S.saved := by
  obtain ⟨A, B, own₁, own₁', footing, alike⟩ := standing
  have both := frames.symm.trans (alike.frames.trans (congrArg _ footing.frames))
  obtain ⟨rfl, tail⟩ := List.append_inj' both (by simp [depth])
  obtain ⟨rfl, rfl⟩ := List.cons.inj tail
  obtain ⟨u, _, saved, _, _, height⟩ := alike.saved
  rw [footing.entering, Nat.add_zero] at height
  refine ⟨rfl, ?_⟩
  rw [saved, ← height, List.drop_left, footing.saved]

/-- As long as the frame of a closure stays, so do the frames below it and the scopes saved for
them. -/
theorem Aligned.kept_saved {m now : Machine} {c d : Closure Value} {floor floor' : Nat}
    {above above' below below' : List Frame} (aligned : Aligned m)
    (frames : m.frames.toList = above ++ .call c floor :: below)
    (keeps : Moment.Keeps below.length (.running m) (.running now))
    (frames' : now.frames.toList = above' ++ .call d floor' :: below')
    (depth : below'.length = below.length) :
    floor' = floor ∧ below' = below ∧
      now.scopes.saved.drop (callsIn above') = m.scopes.saved.drop (callsIn above) := by
  have found := Machine.frameAt?_of_append frames
  obtain ⟨S, standing, height, _, _⟩ := aligned.standing found rfl
  have stands : Moment.Stands S (.running m) := ⟨_, _, _, _, _, le_refl _, standing⟩
  rw [← height] at keeps found
  obtain ⟨k, p, f, g, n, _, standing'⟩ := stands.keeps keeps
  obtain ⟨_, there, becomes⟩ := Moment.Keeps.becomes keeps found
  obtain ⟨rfl, saved⟩ := standing.base_eq frames height.symm
  obtain ⟨rfl, saved'⟩ := standing'.base_eq frames' depth
  obtain ⟨d', rfl⟩ := becomes.call
  cases (Machine.frameAt?_of_append frames').symm.trans there
  exact ⟨rfl, rfl, saved'.trans saved.symm⟩

/-- A tail call in any state of a run on an idle machine, whatever frames the running closure has
set up. If the parameters bind, the new closure has the place of the running one: the same frames
are below it, it has the same floor, and no scope has been saved or left. The same holds of every
tail call that the activation makes later, so frames, floors and saved scopes are then what they
were after the first; and if the parameters do not bind, an error is raised. -/
theorem tail_calls_in_place {m₀ m₁ m : Machine} {c : Closure Value} {floor : Nat}
    {below : List Frame} (idle : m₀.Idle) (loaded : m₀.Loaded m₁) (course : m₁.Course m)
    (calls : m.TailCalls c floor below) :
    (∀ X args, m.Offers c floor X args →
      m.step = (m.replacedBy c floor below X args).proceed) ∧
    ((∀ X args, ¬ m.Offers c floor X args) →
      ∃ (thrown : Machine) (e : LocatedError), m.step = thrown.raiseError e) ∧
    ∀ now d floor' below' X args, Moment.Keeps below.length (.running m) (.running now) →
      now.TailCalls d floor' below' → below'.length = below.length → now.Offers d floor' X args →
      now.step = (now.replacedBy d floor below X args).proceed ∧
        now.scopes.saved = m.scopes.saved := by
  have sound : (Moment.running m).Sound := course.sound (loaded.sound idle)
  have steps {n : Machine} {e : Closure Value} {height : Nat} {rest : List Frame}
      (sound : (Moment.running n).Sound) (calls : n.TailCalls e height rest) (X args : List Value)
      (offers : n.Offers e height X args) :
      n.step = (n.replacedBy e height rest X args).proceed := by
    rcases sound.1.step_of_tailCall calls with ⟨X', args', offers', step⟩ | ⟨other, _⟩
    · obtain ⟨rfl, rfl⟩ := List.append_inj' (offers.operands.symm.trans offers'.operands)
        (offers.accepts.length_eq.trans offers'.accepts.length_eq.symm)
      exact step
    · exact absurd offers (other X args)
  refine ⟨steps sound calls, fun none => ?_, ?_⟩
  · rcases sound.1.step_of_tailCall calls with ⟨X, args, offers, _⟩ | ⟨_, failed⟩
    · exact absurd offers (none X args)
    · exact failed
  · intro now d floor' below' X args keeps calls' depth offers
    have step := steps (Moment.Reaches.sound keeps.reaches sound) calls' X args offers
    obtain ⟨above, c', frames, innermost⟩ := calls.frames
    obtain ⟨above', d', frames', innermost'⟩ := calls'.frames
    obtain ⟨rfl, rfl, saved⟩ := sound.1.kept_saved frames keeps frames' depth
    rw [callsIn_of_isCall innermost, callsIn_of_isCall innermost'] at saved
    exact ⟨step, saved⟩

/-! ### A closure that repeats itself out of a loop -/

theorem Machine.turn_of_act {m m' : Machine} {said : Option Step} (calm : m.control = .none)
    (goes : m.act = .goes said m') : m.turn = (said, m') := by
  rw [← pass_of_calm calm, ← act_result, goes]
  rfl

theorem Machine.Course.act {m₁ m m' : Machine} (course : m₁.Course m) (calm : m.control = .none)
    (goes : m.act = .goes (some .checkpoint) m') : m₁.Course m' := by
  have still : m.heed = (none, m) := by simp only [heed, calm]
  exact .step course (step_of_turn still (turn_of_act calm goes)) (by decide)

/-- Code that hands the parameter of the closure on to the closure itself. -/
def handingOn : List Value := [.ref "x" .none, .sym "g", .op (.primitive .tailCall) .none]

/-- A closure that repeats this code, and so never gets to repeat it. -/
def Closure.recurring : Closure Value :=
  ⟨0, some "g", [.quote 1 handingOn, .op (.primitive .loop) .none], some ⟨[⟨"x", none⟩], none⟩,
    .empty⟩

/-- A machine that knows this closure and has an argument for it, with another operand below. -/
def Machine.recurring : Machine :=
  { registry := .standard
    operands := ⟨.ofList [.int 5, .int 7], []⟩
    scopes := ⟨⟨[("g", .closure .recurring)]⟩, []⟩
    nextId := 2 }

/-- The machine inside the closure. -/
def Machine.recurring.inside (above : List Frame) (items : List Value) (control : Control)
    (checkpoints : Nat) : Machine :=
  { Machine.recurring with
    operands := ⟨.ofList items, [1]⟩
    scopes := Machine.recurring.scopes.enter (Closure.recurring.scopeWith [.int 5])
    frames := .ofList (above ++ [.call .recurring 1, .body []])
    control
    checkpoints }

namespace Machine.recurring

/-- The closure has just been entered. -/
def entered : Nat → Machine := inside [.body Closure.recurring.body] [.int 7] .none

/-- The code to be repeated has been pushed. -/
def pushed : Nat → Machine :=
  inside [.body [.op (.primitive .loop) .none]] [.quote 1 handingOn, .int 7] .none

/-- The closure is in the loop. -/
def looping : Nat → Machine := inside [.loop handingOn, .body []] [.int 7] .none

/-- The loop has got to the tail call. -/
def ready : Nat → Machine :=
  inside [.body [.op (.primitive .tailCall) .none], .loop handingOn, .body []]
    [.sym "g", .int 5, .int 7] .none

/-- The tail call has been made. -/
def signalled : Nat → Machine :=
  inside [.body [], .loop handingOn, .body []] [.int 5, .int 7] (.tailCall .recurring)

theorem act_pushed (k : Nat) : (pushed k).act = .goes (some .checkpoint) (looping (k + 1)) := by
  have ran : Exec.operation (.primitive .loop) (inside [.body []]
      [.quote 1 handingOn, .int 7] .none k) = .ok none (looping k) := rfl
  exact act_of_operation (m := pushed k) rfl rfl ran

theorem act_ready (k : Nat) : (ready k).act = .goes (some .checkpoint) (signalled (k + 1)) := by
  have raised : Exec.operation (.primitive .tailCall) (inside [.body [], .loop handingOn, .body []]
      [.sym "g", .int 5, .int 7] .none k) =
      .error (.tailCall .recurring) (inside [.body [], .loop handingOn, .body []]
        [.int 5, .int 7] .none k) := rfl
  exact act_of_signal (m := ready k) rfl rfl raised

theorem course_signalled :
    (Machine.recurring.loadValue (.ref "g" .none)).Course (signalled 6) := by
  have entered : (Machine.recurring.loadValue (.ref "g" .none)).Course (entered 1) :=
    .act .start rfl rfl
  have looping : (Machine.recurring.loadValue (.ref "g" .none)).Course (looping 3) :=
    .act (m := pushed 2) (.act entered rfl rfl) rfl (act_pushed 2)
  let resolved := inside [.body handingOn.tail, .loop handingOn, .body []] [.int 5, .int 7] .none 4
  have first : (recurring.looping 3).step = (.checkpoint, resolved) :=
    step_of_turns rfl rfl rfl
  have ready : (Machine.recurring.loadValue (.ref "g" .none)).Course (ready 5) :=
    .act (.step looping first (by decide)) rfl rfl
  exact .act ready rfl (act_ready 5)

/-- From one tail call to the next. -/
theorem keeps_signalled (k : Nat) :
    Moment.Keeps 1 (.running (signalled k)) (.running (signalled (k + 5))) := by
  let g : Frame := .call .recurring 1
  have entered : Moment.Keeps 1 (.running (signalled k)) (.running (entered k)) :=
    .act .refl rfl ⟨_, _, rfl, rfl, .replaced .recurring .recurring 1⟩
  have looping : Moment.Keeps 1 (.running (signalled k)) (.running (looping (k + 2))) :=
    .act (m := pushed (k + 1)) (.act entered rfl ⟨_, _, rfl, rfl, .same g⟩) (act_pushed (k + 1))
      ⟨_, _, rfl, rfl, .same g⟩
  let repeated :=
    inside [.body handingOn, .loop handingOn, .body []] [.int 7] .none (k + 2)
  let resolved :=
    inside [.body handingOn.tail, .loop handingOn, .body []] [.int 5, .int 7] .none (k + 3)
  have ready : Moment.Keeps 1 (.running (signalled k)) (.running (ready (k + 4))) :=
    .act (m := resolved) (.act (m := repeated) (.act looping rfl ⟨_, _, rfl, rfl, .same g⟩)
      rfl ⟨_, _, rfl, rfl, .same g⟩) rfl ⟨_, _, rfl, rfl, .same g⟩
  exact .act ready (act_ready (k + 4)) ⟨_, _, rfl, rfl, .same g⟩

theorem tailCalls_signalled (k : Nat) : (signalled k).TailCalls .recurring 1 [.body []] :=
  ⟨rfl, [.body [], .loop handingOn, .body []], .recurring, rfl, by decide⟩

theorem offers_signalled (k : Nat) : (signalled k).Offers .recurring 1 [.int 7] [.int 5] :=
  ⟨rfl, Nat.le_refl 1, rfl, trivial⟩

end Machine.recurring

section

open Machine.recurring

/-- A closure that hands over to itself out of a loop is on the same three frames each time. -/
theorem tail_calls_in_place_of_loop :
    (Machine.recurring.loadValue (.ref "g" .none)).Course (signalled 6) ∧
      (signalled 6).frames.size = 5 ∧
      (signalled 6).step =
        ((signalled 6).replacedBy .recurring 1 [.body []] [.int 7] [.int 5]).proceed ∧
      Moment.Keeps 1 (.running (signalled 6)) (.running (signalled 11)) ∧
      (signalled 11).step =
        ((signalled 11).replacedBy .recurring 1 [.body []] [.int 7] [.int 5]).proceed ∧
      (signalled 11).scopes.saved = (signalled 6).scopes.saved := by
  have idle : Machine.recurring.Idle := ⟨rfl, rfl, rfl, rfl, rfl, rfl⟩
  obtain ⟨first, _, later⟩ := tail_calls_in_place idle (.value _) course_signalled
    (tailCalls_signalled 6)
  obtain ⟨second, saved⟩ := later (signalled 11) .recurring 1 [.body []] [.int 7] [.int 5]
    (keeps_signalled 6) (tailCalls_signalled 11) rfl (offers_signalled 11)
  exact ⟨course_signalled, rfl, first _ _ (offers_signalled 6), keeps_signalled 6, second, saved⟩

end

end Catena
