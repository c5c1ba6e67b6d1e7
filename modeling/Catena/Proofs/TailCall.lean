import Catena.Proofs.Stage

set_option autoImplicit false

/-!
Tail calls. A closure that ends with a call may make it an ordinary call or a tail call; what its
caller gets is the same.
-/

namespace Catena

/-! ### Making the call -/

theorem Operands.length_toList (s : Operands) : s.toList.length = s.count := by
  rw [toList, List.length_reverse, Stack.length_eq, count]

namespace Machine

variable {c f : Closure Value} {floor : Nat} {below : List Frame} {m n : Machine}

/-- What a turn comes to in which a closure is called. -/
def plainCall (m : Machine) (c : Closure Value) : Option Step × Machine :=
  afterAdvance ((do Exec.enter c; pure Tick.checkpoint) m)

/-- What a turn comes to in which a closure is called in the place of the running one. -/
def tailCall (m : Machine) (c : Closure Value) : Option Step × Machine :=
  ending (m.interrupt (.tailCall c))

theorem plainCall_of_ok (room : ¬ Refused (Exec.enter c m))
    (bound : Exec.bindParameters c { m with scopes := m.scopes.enter c.activation } = .ok () n) :
    m.plainCall c = ending (checkpoint { n with
      operands := n.operands.forbid
      frames := (n.frames.push (.call c n.operands.count)).push (.body c.body) }) := by
  rcases Exec.enter_cases c m with ⟨full, refused⟩ | ⟨_, ⟨_, bound', ran⟩ | ⟨_, _, unbound, _⟩⟩
  · exact absurd ⟨m, refused, full⟩ room
  · cases bound'.symm.trans bound
    simp only [plainCall, Bind.bind, EStateM.bind, ran]
    rfl
  · cases unbound.symm.trans bound

theorem plainCall_of_error {signal : Signal} (room : ¬ Refused (Exec.enter c m))
    (bound : Exec.bindParameters c { m with scopes := m.scopes.enter c.activation } =
      .error signal n) :
    m.plainCall c = ending (interrupt { n with scopes := n.scopes.leave } signal) := by
  rcases Exec.enter_cases c m with ⟨full, refused⟩ | ⟨_, ⟨_, bound', _⟩ | ⟨_, _, unbound, ran⟩⟩
  · exact absurd ⟨m, refused, full⟩ room
  · cases bound'.symm.trans bound
  · cases unbound.symm.trans bound
    simp only [plainCall, Bind.bind, EStateM.bind, ran]
    rfl

/-- The next step begins with putting the closure in place. -/
theorem pass_tailCall (frames : m.frames.toList = .body [] :: .call f floor :: below) :
    (m.tailCall c).2.pass =
      afterSignal ((do
        Exec.bindParameters c
        Exec.setFrames (((Stack.ofList below).push (.call c floor)).push (.body c.body)))
        { m with
          control := .none
          checkpoints := m.checkpoints + 1
          frames := .ofList (.call f floor :: below)
          scopes := m.scopes.leave.enter c.activation }) := by
  let here : Machine := { m with control := .none, checkpoints := m.checkpoints + 1 }
  have passed : ∀ f ∈ [Frame.body []], f.callFloor? = none := List.forall_mem_singleton.2 rfl
  obtain ⟨lower, split, left⟩ := Stack.split?_of_append (s := here.frames) frames passed (by rfl)
  obtain rfl : lower = .ofList below := Stack.ext left
  have rest : here.frames.drop 1 = .ofList (.call f floor :: below) := by
    apply Stack.ext
    simp [here, frames]
  rw [Machine.pass_of_tailCall rfl]
  change afterSignal (Exec.replaceCall c here) = _
  rw [Exec.replaceCall_eq split]
  simp only [List.length_singleton, rest]
  rfl

end Machine

namespace Stage

variable {S : Stage} {c : Closure Value} {args : List Value} {m n : Machine}

theorem alike_entered (frames : m.frames.toList = S.remnant ++ S.below)
    (floors : m.operands.floors = S.items.length :: floorsOf S.below)
    (items : m.operands.items.toList = args ++ S.items)
    (scopes : m.scopes = ⟨S.inner, S.caller :: S.saved⟩) (calm : m.control = .none)
    (scope : Scope) :
    Alike (S.tail S.outer) S.entered (.self m.nextId) [] []
      { m with
        control := .none
        checkpoints := m.checkpoints + 1
        frames := .ofList (S.tail S.outer).frames
        scopes := m.scopes.leave.enter scope }
      { m with scopes := m.scopes.enter scope } := by
  have registers := m.registers_same (p := (Pairing.self m.nextId).rel) fun _ => rfl
  have control : Control.none.Same (Pairing.self m.nextId).rel m.control := by
    rw [calm]
    exact .none
  have count := congrArg List.length items
  simp only [Stack.length_eq, List.length_append] at count
  rw [scopes]
  exact
    { frames := rfl
      frames' := frames
      same := .nil
      floors := floors
      floors' := floors
      layered := trivial
      covered := by
        change S.items.length ≤ m.operands.items.size
        omega
      items := ⟨args, args, items, items,
        List.forall₂_same.2 fun v _ => v.same_self fun _ => rfl⟩
      height := rfl
      saved := ⟨[], [], rfl, rfl, .nil, rfl⟩
      entering := rfl
      active := scope.same_self fun _ => rfl
      registers := ⟨registers.registry, rfl, control, by intro h; cases h⟩
      openQuotes := rfl
      openParams := rfl
      origin := rfl
      nextId := rfl
      nextId' := rfl
      codeOnly := by intro r only; cases only }

/-- The parameters are bound, so the stack is down to the floor, and the body is yet to run. -/
theorem alike_begun {p : Pairing} {k : Nat} (same : .self k ≤ p)
    (alike : Alike (S.tail S.outer) S.entered p [] [] m n)
    (height : m.operands.count = S.items.length) :
    Alike (S.tail c) (S.plain c) p [.body c.body] [.body c.body]
      { m with
        frames := ((Stack.ofList S.below).push (.call c S.items.length)).push (.body c.body) }
      { n with
        operands := n.operands.forbid
        frames := (n.frames.push (.call c n.operands.count)).push (.body c.body) } := by
  have height' : n.operands.count = S.items.length := alike.operands.count_eq.trans height
  exact
    { alike with
      frames := rfl
      frames' := by
        rw [Stack.toList_push, Stack.toList_push, alike.frames', height']
        rfl
      same := .cons (.body (sameAll_self (fun i => same.1 i i rfl) _)) .nil
      floors' := by
        change n.operands.count :: n.operands.floors = _
        rw [height', alike.floors']
        rfl
      layered := ⟨(by intro height mark; cases mark), trivial⟩
      codeOnly := by intro r only; cases only }

/-- Parameters that do not bind are an error of the call, whichever way it is made. -/
theorem view_unbound {p : Pairing} {k : Nat} (same : .self k ≤ p)
    (alike : Alike (S.tail S.outer) S.entered p [] [] m n) :
    ({ ({ n with scopes := n.scopes.leave } : Machine).releaseAll S.remnant with
      frames := .ofList S.below } : Machine).view =
    ({ m.releaseAll [.call S.outer S.items.length] with frames := .ofList S.below } :
      Machine).view := by
  have view := alike.view_eq same rfl rfl
  have floors := alike.floors_eq
  have saved := (alike.saved_eq rfl).1
  have left : ({ n with scopes := n.scopes.leave } : Machine).view =
      { n.view with scopes := n.view.scopes.leave } := rfl
  change ({ (Machine.releaseAll _ _).view with frames := .ofList S.below } : Machine) =
    { (m.releaseAll _).view with frames := .ofList S.below }
  rw [Machine.view_releaseAll, Machine.view_releaseAll, left, view]
  simp [Machine.view, Machine.releaseAll, Machine.release, remnant, Operands.allow, Scopes.leave,
    floors, saved, tail, entered]

/-- The two ways of calling set out side by side. -/
theorem Next.start (frames : m.frames.toList = S.remnant ++ S.below)
    (floors : m.operands.floors = S.items.length :: floorsOf S.below)
    (items : m.operands.items.toList = args ++ S.items) (exact : args.length = c.arity)
    (scopes : m.scopes = ⟨S.inner, S.caller :: S.saved⟩) (calm : m.control = .none)
    (room : ¬ Refused (Exec.enter c m)) : S.Next (m.tailCall c).2.pass (m.plainCall c) := by
  have alike := alike_entered frames floors items scopes calm c.activation
  have called : m.frames.toList = .body [] :: .call S.outer S.items.length :: S.below := frames
  rw [Machine.pass_tailCall called]
  generalize started : ({ m with
    control := .none
    checkpoints := m.checkpoints + 1
    frames := .ofList (.call S.outer S.items.length :: S.below)
    scopes := m.scopes.leave.enter c.activation } : Machine) = m₀
  have alike : Alike (S.tail S.outer) S.entered (.self m.nextId) [] [] m₀
      { m with scopes := m.scopes.enter c.activation } := started ▸ alike
  have operands : m₀.operands = m.operands := by rw [← started]
  have bound := Parallel.bindParameters (c.same_self fun _ => rfl) _ _ _ _ _ (le_refl _) alike
  have steady := Exec.steady_bindParameters c m₀
  have steady' := Exec.steady_bindParameters c { m with scopes := m.scopes.enter c.activation }
  have fits := (Exec.steady_bindParameters c).not_refused m₀
  have fits' := (Exec.steady_bindParameters c).not_refused
    { m with scopes := m.scopes.enter c.activation }
  simp only [Bind.bind, EStateM.bind]
  generalize ran : Exec.bindParameters c m₀ = x at bound steady fits ⊢
  generalize ran' : Exec.bindParameters c { m with scopes := m.scopes.enter c.activation } = y
    at bound steady' fits'
  cases bound with
  | refused _ deeper => exact (deeper.either.elim fits fits').elim
  | @ok q own own' _ _ m₁ n₁ le _ alike₁ =>
    have none : own = [] := alike₁.own_eq ((congrArg Stack.toList steady.1).trans alike.frames)
    have none' : own' = [] :=
      alike₁.own_eq' ((congrArg Stack.toList steady'.1).trans alike.frames')
    subst none none'
    have height : m₁.operands.count = S.items.length := by
      have taken := (Exec.absorbs_of_bindParameters ran).count
      have count := Operands.Alike.length_above items
      rw [operands] at taken
      omega
    rw [Machine.plainCall_of_ok room ran']
    have begun := alike_begun (c := c) le alike₁ height
    exact .inside (.intro le (begun.setControl (i := m₁.checkpoints) (j := n₁.checkpoints + 1)
      begun.registers.control begun.registers.pending))
  | @error q own own' _ _ m₁ n₁ le signals alike₁ =>
    obtain ⟨level, e, rfl, _⟩ := steady
    cases signals with
    | error =>
      have none : own = [] := alike₁.own_eq ((congrArg Stack.toList level.1).trans alike.frames)
      have none' : own' = [] :=
        alike₁.own_eq' ((congrArg Stack.toList steady'.1.1).trans alike.frames')
      subst none none'
      rw [Machine.plainCall_of_error room ran']
      have located : n₁.locate e = m₁.locate e := alike₁.locate e
      change S.Next (Machine.ending (m₁.raiseError (m₁.locate e)))
        (Machine.ending (Machine.raiseError { n₁ with scopes := n₁.scopes.leave } (n₁.locate e)))
      rw [located]
      refine .raised (n := { n₁ with scopes := n₁.scopes.leave }) alike₁.frames alike₁.frames' ?_ ?_
        (view_unbound le alike₁) _
      · simp [Frame.attemptHeight?]
      · simp [remnant, Frame.attemptHeight?]

end Stage

/-! ### Tail calls -/

/-- The running closure `f` has come to the last element of its body, a call: what the call itself
takes off the stack is gone. -/
def Machine.atCall (m : Machine) (f : Closure Value) (floor : Nat) (below : List Frame)
    (operands : Operands) (origin : Origin) : Machine :=
  { m with frames := .ofList (.body [] :: .call f floor :: below), operands, origin }

/-- In every state of a run on an idle machine in which a closure without declared results has only
a call left to do, with exactly the arguments of that call above its floor: whether it is a tail
call or an ordinary one, the caller sees the same once the closures are gone, after the same
dialogue with the host. This is so unless the ordinary call is refused a frame. -/
theorem tailCall_transparent {m₀ m₁ s : Machine} {v : Value} {f c : Closure Value} {floor : Nat}
    {below : List Frame} {operands : Operands} {origin : Origin} {talk : Dialogue}
    (idle : m₀.Idle) (loaded : m₀.Loaded m₁) (course : m₁.Course s) (calm : s.control = .none)
    (frames : s.frames.toList = .body [v] :: .call f floor :: below)
    (quiet : ∀ signature ∈ f.signature, signature.returns = none)
    (floors : operands.floors = s.operands.floors) (arguments : operands.count = floor + c.arity)
    (room : ¬ Refused (Exec.enter c (s.atCall f floor below operands origin)))
    (fits : Machine.Fits below.length talk
      ((s.atCall f floor below operands origin).plainCall c))
    (outcome : Option Outcome) (seen : Machine) :
    (∃ m, Machine.Leaves below.length talk
        ((s.atCall f floor below operands origin).tailCall c) outcome m ∧ m.view = seen) ↔
      ∃ m, Machine.Leaves below.length talk
        ((s.atCall f floor below operands origin).plainCall c) outcome m ∧ m.view = seen := by
  obtain ⟨aligned, _⟩ := course.sound (loaded.sound idle)
  have held := aligned.floors
  have saved := aligned.saved
  rw [frames] at held saved
  obtain ⟨caller, callers, scopes⟩ : ∃ caller callers, s.scopes.saved = caller :: callers := by
    apply List.exists_cons_of_length_pos
    rw [saved]
    simp [Frame.isCall]
  have height : (operands.items.toList.drop c.arity).length = floor := by
    rw [List.length_drop, Stack.length_eq]
    change operands.count - c.arity = floor
    omega
  have taken : (operands.items.toList.take c.arity).length = c.arity := by
    rw [List.length_take, Stack.length_eq]
    change min c.arity operands.count = c.arity
    omega
  subst height
  let S : Stage := ⟨f, below, operands.items.toList.drop c.arity, s.scopes.active, caller, callers,
    quiet⟩
  let called := s.atCall f S.items.length below operands origin
  have active : called.scopes = ⟨s.scopes.active, caller :: callers⟩ := by
    rw [← scopes]
    rfl
  have next : S.Next (called.tailCall c).2.pass (called.plainCall c) :=
    .start rfl (floors.trans held) (List.take_append_drop c.arity operands.items.toList).symm taken
      active calm room
  have deep : below.length < (called.tailCall c).2.frames.size :=
    Nat.lt_of_lt_of_le (Nat.lt_succ_self _) (Nat.le_succ _)
  have awake : (called.tailCall c).2.control ≠ .suspend := by
    intro asleep
    cases asleep
  have begins (m : Machine) : Machine.Leaves below.length talk (called.tailCall c) outcome m ↔
      Machine.Leaves below.length talk (called.tailCall c).2.pass outcome m :=
    Machine.Leaves.pass_iff deep awake
  change (∃ m, Machine.Leaves below.length talk (called.tailCall c) outcome m ∧ _) ↔ _
  simp only [begins]
  exact next.leaves_iff fits seen

theorem Machine.Fits.back {depth : Nat} {talk : Dialogue} {s : Option Step} {m : Machine}
    (le : m.frames.size ≤ depth) : Fits depth talk (s, m) := by
  intro told n _ visits
  cases visits with
  | here lt => exact absurd le (Nat.not_le.2 lt)
  | pass lt => exact absurd le (Nat.not_le.2 lt)
  | answer lt => exact absurd le (Nat.not_le.2 lt)

/-- One part of a run that gets back without having been refused a frame. -/
theorem Machine.leaves_of_pass {depth : Nat} {talk : Dialogue} {s : Option Step} {m m' : Machine}
    {x : Option Step × Machine} {o : Option Outcome} (passed : m.pass = x)
    (deep : depth < m.frames.size) (calm : m.control = .none) (room : ¬ m.Refuses)
    (rest : Fits depth talk x ∧ Leaves depth talk x o m') :
    Fits depth talk (s, m) ∧ Leaves depth talk (s, m) o m' := by
  have awake : m.control ≠ .suspend := by
    rw [calm]
    intro asleep
    cases asleep
  subst passed
  refine ⟨?_, .pass deep awake rest.2⟩
  intro told n before visits
  cases visits with
  | here => exact fun _ => room
  | pass _ _ visits => exact rest.1 told n before visits
  | answer _ asleep => exact absurd asleep awake

/-- A closure that puts its argument on the stack twice, and one that calls it with a number. -/
def Closure.double : Closure Value :=
  ⟨0, some "double", [.ref "x" .none, .ref "x" .none], some ⟨[⟨"x", none⟩], none⟩, .empty⟩

def Closure.doubleFive : Closure Value :=
  ⟨1, some "f", [.int 5, .ref "double" .none], none, ⟨[("double", .closure .double)]⟩⟩

/-- A machine that knows the second one and has run part of it. -/
def Machine.doubling (checkpoints : Nat) (frames : List Frame) (items : List Value)
    (floors : List Nat) (scopes : Scopes) : Machine :=
  { registry := .standard
    frames := .ofList frames
    operands := ⟨.ofList items, floors⟩
    scopes := scopes
    checkpoints := checkpoints
    nextId := 2 }

theorem tailCall_transparent_double :
    ∃ m₀ s m : Machine, m₀.Idle ∧ (m₀.load [⟨.name "f", .none⟩]).Course s ∧
      s.turn = (s.atCall .doubleFive 0 [.program []] s.operands .none).plainCall .double ∧
      Machine.Leaves 1 []
        ((s.atCall .doubleFive 0 [.program []] s.operands .none).tailCall .double) none m ∧
      m.frames.toList = [.program []] ∧ m.operands.toList = [.int 5, .int 5] := by
  let main : Scope := ⟨[("f", .closure .doubleFive)]⟩
  let outer : Scope := Closure.doubleFive.activation
  let inner : Scope := Closure.double.activation.insert "x" (.int 5)
  let top : List Frame := [.call .doubleFive 0, .program []]
  let five : Value := .int 5
  let x : Value := .ref "x" .none
  let m₀ := Machine.doubling 0 [] [] [] ⟨main, []⟩
  let s := Machine.doubling 2 (.body [.ref "double" .none] :: top) [five] [0] ⟨outer, [main]⟩
  have course : (m₀.load [⟨.name "f", .none⟩]).Course s :=
    .step (s := .checkpoint)
      (.step (s := .checkpoint) .start (Machine.step_of_turn rfl rfl) (by decide))
      (Machine.step_of_turn rfl rfl) (by decide)
  have idle : m₀.Idle := ⟨rfl, rfl, rfl, rfl, rfl, rfl⟩
  let called := s.atCall .doubleFive 0 [.program []] s.operands .none
  let n₁ := Machine.doubling 3 (.body [x, x] :: .call .double 0 :: .body [] :: top) [] [0, 0]
    ⟨inner, [outer, main]⟩
  let n₂ := Machine.doubling 4 (.body [x] :: .call .double 0 :: .body [] :: top) [five] [0, 0]
    ⟨inner, [outer, main]⟩
  let n₃ := Machine.doubling 5 (.body [] :: .call .double 0 :: .body [] :: top) [five, five] [0, 0]
    ⟨inner, [outer, main]⟩
  let n₄ := Machine.doubling 5 (.call .double 0 :: .body [] :: top) [five, five] [0, 0]
    ⟨inner, [outer, main]⟩
  let n₅ := Machine.doubling 5 (.body [] :: top) [five, five] [0] ⟨outer, [main]⟩
  let n₆ := Machine.doubling 5 top [five, five] [0] ⟨outer, [main]⟩
  let n₇ := Machine.doubling 5 [.program []] [five, five] [] ⟨main, []⟩
  have entered : called.plainCall .double = (some .checkpoint, n₁) := rfl
  have first : n₁.pass = (some .checkpoint, n₂) := rfl
  have second : n₂.pass = (some .checkpoint, n₃) := rfl
  have third : n₃.pass = (none, n₄) := rfl
  have fourth : n₄.pass = (none, n₅) := rfl
  have fifth : n₅.pass = (none, n₆) := rfl
  have sixth : n₆.pass = (none, n₇) := rfl
  have both : Machine.Fits 1 [] (called.plainCall .double) ∧
      Machine.Leaves 1 [] (called.plainCall .double) none n₇ := by
    rw [entered]
    apply Machine.leaves_of_pass first (by decide) rfl (Machine.not_refuses rfl rfl)
    apply Machine.leaves_of_pass second (by decide) rfl (Machine.not_refuses rfl rfl)
    apply Machine.leaves_of_pass third (by decide) rfl (Machine.not_refuses rfl rfl)
    apply Machine.leaves_of_pass fourth (by decide) rfl (Machine.not_refuses rfl rfl)
    apply Machine.leaves_of_pass fifth (by decide) rfl (Machine.not_refuses rfl rfl)
    apply Machine.leaves_of_pass sixth (by decide) rfl (Machine.not_refuses rfl rfl)
    exact ⟨.back (Nat.le_refl 1), .back (s := none) (Nat.le_refl 1)⟩
  have room : ¬ Refused (Exec.enter .double called) := by
    have ran : Exec.enter .double called = .ok () { n₁ with checkpoints := 2 } := rfl
    rintro ⟨_, failed, _⟩
    rw [ran] at failed
    cases failed
  have quiet : ∀ signature ∈ Closure.doubleFive.signature, signature.returns = none := by
    intro signature declared
    cases declared
  obtain ⟨m, leaves, view⟩ := (tailCall_transparent idle (.program _) course rfl rfl quiet rfl rfl
    room both.1 none n₇.view).2 ⟨n₇, both.2, rfl⟩
  have frames : m.view.frames = n₇.view.frames := congrArg Machine.frames view
  have operands : m.view.operands = n₇.view.operands := congrArg Machine.operands view
  exact ⟨m₀, s, m, idle, course, rfl, leaves, congrArg Stack.toList frames,
    congrArg Operands.toList operands⟩

end Catena
