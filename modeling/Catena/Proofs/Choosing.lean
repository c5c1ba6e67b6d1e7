import Catena.Proofs.Tenure

set_option autoImplicit false

/-!
Conditionals choose the first action whose test holds. The tests are run one after the other, each
on what the one before has left, and nothing but their verdicts is taken away; as soon as one holds
the conditional is gone and its action runs in its place.
-/

namespace Catena

/-- The frames of a conditional. -/
def Frame.isCond : Frame → Bool
  | .condTest _ | .condCheck .. => true
  | _ => false

theorem Frame.waits_of_isCond (f : Frame) (cond : f.isCond = true) : f.waits = true := by
  cases f with
  | condTest _ | condCheck _ _ => rfl
  | _ => cases cond

/-! ### The turns of a conditional -/

namespace Machine

variable {below : List Frame} {m : Machine} {s : Operands} {action : Value}
  {rest : List (Value × Value)}

theorem act_condTest_nil (rests : Moment.Rests (.condTest [] :: below) (.running m)) :
    m.act = .goes none (m.on below) :=
  act_of_rests rests

/-- A test is invoked, with its action kept below it. -/
theorem act_condTest {pair : Value × Value}
    (rests : Moment.Rests (.condTest (pair :: rest) :: below) (.running m)) :
    Moment.ofAct m.act = .invoking pair.1 (m.on (.condCheck pair.2 rest :: below)) := by
  rw [act_of_rests rests]
  exact congrArg _ (actAfterAdvance_thenInternal (Exec.invoke pair.1) _)

variable (rests : Moment.Rests (.condCheck action rest :: below) (.running m))
include rests

theorem act_condCheck :
    m.act = actAfterSignal (Exec.checkCondition action rest (.ofList below) m) :=
  (act_of_rests rests).trans (actAfterAdvance_thenInternal _ m)

theorem act_of_true (popped : m.operands.pop = .ok (.bool true, s)) :
    Moment.ofAct m.act = .invoking action (m.having s below) := by
  rw [act_condCheck rests]
  simp only [Exec.checkCondition, Exec.pop, Bind.bind, EStateM.bind, popped]
  rfl

theorem act_of_false (popped : m.operands.pop = .ok (.bool false, s)) :
    m.act = .goes none (m.having s (.condTest rest :: below)) := by
  rw [act_condCheck rests]
  simp only [Exec.checkCondition, Exec.pop, Bind.bind, EStateM.bind, popped]
  rfl

theorem act_of_missing {e : RuntimeError} (popped : m.operands.pop = .error e) :
    m.act = .throws (m.locate e) m := by
  rw [act_condCheck rests]
  simp only [Exec.checkCondition, Exec.pop, Bind.bind, EStateM.bind, popped]
  rfl

theorem act_of_mismatch {v : Value} (popped : m.operands.pop = .ok (v, s))
    (other : ∀ b, v ≠ .bool b) :
    m.act = .throws (m.locate (.conditionMismatch v)) { m with operands := s } := by
  rw [act_condCheck rests]
  simp only [Exec.checkCondition, Exec.pop, Bind.bind, EStateM.bind, popped]
  cases v with
  | bool b => exact absurd rfl (other b)
  | _ => rfl

end Machine

/-- A conditional is gone when its action is invoked. -/
theorem Moment.not_has_invoking {v : Value} (code : v.isCode = true) (m : Machine) :
    ¬ (Moment.invoking v m).Has Frame.isCond m.frames.toList := by
  rintro ⟨f, cond, above, frames⟩
  obtain ⟨new, added, _, running⟩ := Exec.adds_code code m
  rw [invoking, frames_ofAct_actAfterSignal, added, List.append_cons] at frames
  have same : above ++ [f] = new := List.append_cancel_right frames
  have waits := f.waits_of_isCond cond
  rw [running f (same ▸ List.mem_append_right _ (List.mem_singleton_self f))] at waits
  cases waits

/-! ### What a conditional does -/

namespace Machine

/-- A test has been run, from `m` on, where it had its turn, to `m'`, where its verdict is due. -/
structure Tries (below : List Frame) (pair : Value × Value) (rest : List (Value × Value))
    (m m' : Machine) : Prop where
  next : Moment.Rests (.condTest (pair :: rest) :: below) (.running m)
  run : (m.on (.condCheck pair.2 rest :: below)).Invokes pair.1 m'

/-- The tests of the pairs `tried` have been run, once each and in this order, and each has left
`false`, which was taken away; `rest` are the pairs that are left at the machine at the end. The
list holds the machines at which the conditional had its turn. -/
inductive Rejects (below : List Frame) (n : Machine) :
    List (Value × Value) → List (Value × Value) → List Machine → Machine → Prop
  | none {pairs : List (Value × Value)} : Moment.Rests (.condTest pairs :: below) (.running n) →
      Rejects below n [] pairs [] n
  | another {tried rest : List (Value × Value)} {pair : Value × Value} {turns : List Machine}
      {m m' : Machine} {s : Operands} : Rejects below n tried (pair :: rest) turns m →
      Tries below pair rest m m' → m'.operands.pop = .ok (.bool false, s) →
      Rejects below n (tried ++ [pair]) rest (turns ++ [m, m'])
        (m'.having s (.condTest rest :: below))

/-- How a conditional comes to its end from `m` on, where these pairs are left: the turns it still
has, the last moment at which it is there, and the next. -/
inductive Decides (below : List Frame) (m : Machine) :
    List (Value × Value) → List Machine → Moment → Moment → Prop
  /-- There is no test left. -/
  | exhausted : Decides below m [] [] (.running m) (.running (m.on below))
  /-- The next test leaves `true`, which is taken away, and the action runs in the place of the
  conditional. -/
  | chosen {pair : Value × Value} {rest : List (Value × Value)} {m' : Machine} {s : Operands} :
      Tries below pair rest m m' → m'.operands.pop = .ok (.bool true, s) →
      Decides below m (pair :: rest) [m] (.running m')
        (.invoking pair.2 (m'.having s below))
  /-- The next test leaves something else, which is taken away. -/
  | mismatched {pair : Value × Value} {rest : List (Value × Value)} {m' : Machine} {s : Operands}
      {v : Value} {y : Moment} : Tries below pair rest m m' → m'.operands.pop = .ok (v, s) →
      (∀ b, v ≠ .bool b) → Decides below m (pair :: rest) [m, m']
        (.thrown (m'.locate (.conditionMismatch v)) { m' with operands := s }) y
  /-- The next test leaves nothing that can be taken. -/
  | missing {pair : Value × Value} {rest : List (Value × Value)} {m' : Machine} {e : RuntimeError}
      {y : Moment} : Tries below pair rest m m' → m'.operands.pop = .error e →
      Decides below m (pair :: rest) [m, m'] (.thrown (m'.locate e) m') y
  /-- The next test does not come to its end: an error, a break or a tail call leaves it, and the
  conditional with it. -/
  | interrupted {pair : Value × Value} {rest : List (Value × Value)} {x y : Moment} :
      Moment.Rests (.condTest (pair :: rest) :: below) (.running m) →
      Moment.Atop (.condCheck pair.2 rest :: below)
        (.invoking pair.1 (m.on (.condCheck pair.2 rest :: below))) x →
      x.Interrupted → Decides below m (pair :: rest) [m] x y

variable {below : List Frame} {n m m' : Machine} {tried rest pairs : List (Value × Value)}
  {pair : Value × Value} {turns : List Machine} {x y z : Moment}

theorem Rejects.rests (rejects : Rejects below n tried rest turns m) :
    Moment.Rests (.condTest rest :: below) (.running m) := by
  cases rejects with
  | none rests => exact rests
  | another _ tries _ => exact ⟨tries.run.rests.1, rfl⟩

/-- The pairs that have been tried are the first ones. -/
theorem Rejects.append_eq (start : Moment.Rests (.condTest pairs :: below) (.running n))
    (rejects : Rejects below n tried rest turns m) : tried ++ rest = pairs := by
  induction rejects with
  | none rests =>
    have same := rests.2.symm.trans start.2
    injection same with same
    injection same
  | another _ _ _ ih => rw [List.append_assoc, ← ih, List.singleton_append]

/-- The three things that can become of a test that has come to its end. -/
theorem Tries.cases (tries : Tries below pair rest m m') :
    (∃ s, m'.operands.pop = .ok (.bool true, s) ∧
      Moment.ofAct m'.act = .invoking pair.2 (m'.having s below)) ∨
    (∃ s, m'.operands.pop = .ok (.bool false, s) ∧
      m'.act = .goes none (m'.having s (.condTest rest :: below))) ∨
    ∃ e after, Moment.ofAct m'.act = .thrown e after ∧
      after.frames.toList = .condCheck pair.2 rest :: below ∧
      ∀ y, Decides below m (pair :: rest) [m, m'] (.thrown e after) y := by
  have rests : Moment.Rests (.condCheck pair.2 rest :: below) (.running m') := tries.run.rests
  cases popped : m'.operands.pop with
  | error e =>
    refine .inr (.inr ⟨_, _, ?_, rests.2, fun y => .missing tries popped⟩)
    rw [act_of_missing rests popped]
    rfl
  | ok found =>
    obtain ⟨v, s⟩ := found
    by_cases verdict : ∃ b, v = .bool b
    · obtain ⟨b, rfl⟩ := verdict
      cases b with
      | true => exact .inl ⟨s, rfl, act_of_true rests popped⟩
      | false => exact .inr (.inl ⟨s, rfl, act_of_false rests popped⟩)
    · have other (b : Bool) : v ≠ .bool b := fun same => verdict ⟨b, same⟩
      refine .inr (.inr ⟨_, _, ?_, ?_, fun y => .mismatched tries popped other⟩)
      · rw [act_of_mismatch rests popped other]
        rfl
      · exact rests.2

/-- What a conditional has come to at a moment at which it is still there. -/
inductive Stage (below : List Frame) (n : Machine) : List Machine → Moment → Prop
  | testing {tried rest : List (Value × Value)} {turns : List Machine} {m : Machine} :
      Rejects below n tried rest turns m → Stage below n turns (.running m)
  | tested {tried rest : List (Value × Value)} {pair : Value × Value} {turns : List Machine}
      {m : Machine} {x : Moment} : Rejects below n tried (pair :: rest) turns m →
      Moment.Atop (.condCheck pair.2 rest :: below)
        (.invoking pair.1 (m.on (.condCheck pair.2 rest :: below))) x →
      Stage below n (turns ++ [m]) x
  | refused {tried rest : List (Value × Value)} {pair : Value × Value} {turns : List Machine}
      {m m' after : Machine} {e : LocatedError} : Rejects below n tried (pair :: rest) turns m →
      after.frames.toList = .condCheck pair.2 rest :: below →
      (∀ y, Decides below m (pair :: rest) [m, m'] (.thrown e after) y) →
      Stage below n (turns ++ [m, m']) (.thrown e after)

/-- The test runs above the conditional. -/
theorem suffix_of_atop
    (atop : Moment.Atop (.condCheck pair.2 rest :: below)
      (.invoking pair.1 (m.on (.condCheck pair.2 rest :: below))) x) :
    .condCheck pair.2 rest :: below <:+ x.machine.frames.toList :=
  atop.suffix (Moment.suffix_invoking pair.1 (m.on (.condCheck pair.2 rest :: below)))

/-- An error that a conditional throws takes it away. -/
theorem not_has_raiseError {f : Frame} (frames : m.frames.toList = f :: below)
    (cond : f.isCond = true) (e : LocatedError) :
    ¬ (Moment.running (m.raiseError e).2).Has Frame.isCond below := by
  rintro ⟨g, _, upheld⟩
  have passed : ∀ h ∈ [f], h.attemptHeight? = none := by
    refine List.forall_mem_singleton.2 ?_
    cases f with
    | attempt _ => cases cond
    | _ => rfl
  exact not_kept_raiseError (frames.trans List.singleton_append.symm) passed e g upheld

/-- A turn of the conditional after which it is still there. -/
theorem Stage.turn (start : Moment.Rests (.condTest pairs :: below) (.running n))
    (code : ∀ pair ∈ pairs, pair.2.isCode = true) (stage : Stage below n turns (.running m))
    (turn : Moment.Turns below (.running m))
    (still : (Moment.ofAct m.act).Has Frame.isCond below) :
    Stage below n (turns ++ [m]) (.ofAct m.act) := by
  cases stage with
  | @testing tried rest turns m rejects =>
    have rests := rejects.rests
    cases rest with
    | nil =>
      rw [act_condTest_nil rests] at still
      exact absurd still (not_has_on m _ _)
    | cons pair rest =>
      rw [act_condTest rests]
      exact .tested rejects .refl
  | @tested tried rest pair turns m₀ _ rejects atop =>
    have tries : Tries below pair rest m₀ m :=
      ⟨rejects.rests, atop, .of_turns turn (suffix_of_atop atop)⟩
    rw [List.append_assoc]
    rcases tries.cases with ⟨s, _, goes⟩ | ⟨s, popped, goes⟩ | ⟨e, after, thrown, frames, ends⟩
    · have member : pair ∈ pairs := by
        rw [← rejects.append_eq start]
        exact List.mem_append_right _ List.mem_cons_self
      rw [goes] at still
      exact absurd still (Moment.not_has_invoking (code pair member) (m.having s below))
    · rw [goes]
      exact .testing (.another rejects tries popped)
    · rw [thrown]
      exact .refused rejects frames ends

/-- A moment that is not the conditional's turn and after which it is still there. -/
theorem Stage.above (stage : Stage below n turns y) (busy : ¬ y.Turns below) (next : y.Next z)
    (still : z.Has Frame.isCond below) : Stage below n turns z := by
  cases stage with
  | testing rejects => exact absurd ⟨_, rejects.rests⟩ busy
  | tested rejects atop =>
    rcases next.atop_or Frame.waits_of_isCond rfl (suffix_of_atop atop) busy with kept | ⟨_, gone⟩
    · exact .tested rejects (atop.trans kept)
    · exact absurd still gone
  | refused _ frames _ =>
    cases next with
    | handed => exact absurd still (not_has_raiseError frames rfl _)

theorem Stage.of_tended (start : Moment.Rests (.condTest pairs :: below) (.running n))
    (code : ∀ pair ∈ pairs, pair.2.isCode = true)
    (tended : Moment.Tended Frame.isCond below (.running n) turns x)
    (there : x.Has Frame.isCond below) : Stage below n turns x := by
  induction tended with
  | start => exact .testing (.none start)
  | turn _ has turn ih => exact (ih has).turn start code turn there
  | above _ has busy next ih => exact (ih has).above busy next there

/-- The end of the conditional. -/
theorem Stage.decides (stage : Stage below n turns x) (next : x.Next y)
    (gone : ¬ y.Has Frame.isCond below) :
    ∃ tried rest before m last, Rejects below n tried rest before m ∧ turns = before ++ last ∧
      Decides below m rest last x y := by
  cases stage with
  | @testing tried rest turns m rejects =>
    have rests := rejects.rests
    refine ⟨tried, rest, turns, m, [], rejects, (List.append_nil _).symm, ?_⟩
    cases next with
    | answered reply asleep => cases rests.1.symm.trans asleep
    | act m =>
      cases rest with
      | nil =>
        rw [act_condTest_nil rests]
        exact .exhausted
      | cons pair rest =>
        rw [act_condTest rests] at gone
        exact absurd ⟨.condCheck pair.2 rest, rfl, suffix_of_atop .refl⟩ gone
  | @tested tried rest pair before m x rejects atop =>
    refine ⟨tried, pair :: rest, before, m, [m], rejects, rfl, ?_⟩
    by_cases turn : x.Turns below
    · have rests := Moment.Rests.of_turns turn (suffix_of_atop atop)
      cases x with
      | thrown e m' => cases rests
      | running m' =>
        have tries : Tries below pair rest m m' := ⟨rejects.rests, atop, rests⟩
        cases next with
        | answered reply asleep => cases rests.1.symm.trans asleep
        | act m' =>
          rcases tries.cases with ⟨s, popped, goes⟩ | ⟨s, _, goes⟩ | ⟨e, after, thrown, frames, _⟩
          · rw [goes]
            exact .chosen tries popped
          · rw [goes] at gone
            exact absurd ⟨_, rfl, List.suffix_refl _⟩ gone
          · rw [thrown] at gone
            exact absurd ⟨.condCheck pair.2 rest, rfl, [], frames.symm⟩ gone
    · rcases next.atop_or Frame.waits_of_isCond rfl (suffix_of_atop atop) turn with
        kept | ⟨cause, _⟩
      · exact absurd ⟨_, rfl, suffix_of_atop (atop.trans kept)⟩ gone
      · exact .interrupted rejects.rests atop cause
  | @refused tried rest pair before m m' after e rejects frames ends =>
    exact ⟨tried, pair :: rest, before, m, [m, m'], rejects, rfl, ends y⟩

end Machine

/-! ### The operator -/

/-- Tests and actions by turns. -/
def inTurn (pairs : List (Value × Value)) : List Value := pairs.flatMap fun p => [p.1, p.2]

theorem pairUp_inTurn {pairs : List (Value × Value)} (code : PairsCode pairs) :
    pairUp (inTurn pairs) = .ok pairs := by
  induction pairs with
  | nil => rfl
  | cons pair pairs ih =>
    obtain ⟨⟨test, action⟩, code⟩ := List.forall_mem_cons.1 code
    have rest : pairUp (inTurn pairs) = .ok pairs := ih code
    simp only [inTurn] at rest
    simp [inTurn, pairUp, Value.isCallable_of_isCode test, Value.isCallable_of_isCode action, rest]

theorem length_inTurn (pairs : List (Value × Value)) :
    (inTurn pairs).length = 2 * pairs.length := by
  simp [inTurn, Nat.mul_comm]

theorem readPairs_inTurn {pairs : List (Value × Value)} (code : PairsCode pairs) :
    readPairs (inTurn pairs) = .ok pairs := by
  rw [readPairs, length_inTurn, if_pos (Nat.mul_mod_right 2 _), pairUp_inTurn code]

theorem Exec.errs_cond : Errs cond := by
  refine (steady_pop.errs.bind fun v => ?_).bind fun _ => errs_pushFrame _
  split
  · exact (errs_ofExcept _).bind fun _ => errs_pure _
  · exact errs_fail _

/-- A conditional takes its pairs and puts up its frame. -/
theorem Exec.of_cond {s s' : Machine} {X : List Value} {id : Nat} {pairs : List (Value × Value)}
    (code : PairsCode pairs) (operands : s.operands.toList = X ++ [.array id (inTurn pairs)])
    (ran : cond s = .ok () s') :
    s' = s.having (s.operands.spend 1) (.condTest pairs :: s.frames.toList) := by
  obtain ⟨found, left, popped, pushed⟩ := bind_eq_ok ran
  obtain ⟨v, left', taken, rest⟩ := bind_eq_ok popped
  obtain ⟨top, spent⟩ := pop_eq_ok_iff.1 taken
  rw [Operands.toList_eq_append_iff.1 operands] at top
  injection top with top
  subst top
  obtain ⟨pairs', _, read, rest⟩ := bind_eq_ok rest
  obtain ⟨read, rfl⟩ := ofExcept_eq_ok_iff.1 read
  rw [readPairs_inTurn code] at read
  cases read
  cases rest
  rw [pushFrame_eq_ok pushed, spent.machine]
  exact s.having_push _ _

/-- Take any conditional whose tests and actions are code and any run of the machine from where it
has put up its frame, as long as that frame is there, and the moment at which it is gone. Some first
pairs have been tried, each test once and in order, and rejected; then there was none left, or the
next test held, and its action is invoked on the frames below; or the next test has left something
that is not a truth value, or has been left by an error, a break or a tail call. -/
theorem cond_first_match {m s n : Machine} {said : Option Step} {X : List Value} {id : Nat}
    {pairs : List (Value × Value)} (performs : m.Performs (.primitive .cond) s)
    (goes : m.act = .goes said n) (operands : s.operands.toList = X ++ [.array id (inTurn pairs)])
    (code : PairsCode pairs) :
    n.operands.toList = X ∧ n.operands.floors = s.operands.floors ∧ n.scopes = s.scopes ∧
    n.frames.toList = .condTest pairs :: s.frames.toList ∧
    ∀ turns x y, Moment.Leaves Frame.isCond s.frames.toList (.running n) turns x y →
      ∃ tried rest before m' last, pairs = tried ++ rest ∧ turns = before ++ last ∧
        Machine.Rejects s.frames.toList n tried rest before m' ∧
        Machine.Decides s.frames.toList m' rest last x y := by
  obtain ⟨k, ran⟩ := performs.ran_plain goes rfl Exec.errs_cond
  have put := Exec.of_cond code operands ran
  have start : Moment.Rests (.condTest pairs :: s.frames.toList) (.running n) :=
    ⟨(congrArg Machine.control put).trans performs.calm,
      congrArg (fun m => m.frames.toList) put⟩
  have given : n.operands = s.operands.spend 1 := congrArg Machine.operands put
  refine ⟨?_, by rw [given]; rfl, (congrArg Machine.scopes put :), start.2, ?_⟩
  · rw [given]
    exact Operands.toList_spend operands
  intro turns x y leaves
  have stage := Machine.Stage.of_tended start (fun pair member => (code pair member).2)
    leaves.tended leaves.there
  obtain ⟨tried, rest, before, m', last, rejects, cut, decides⟩ :=
    stage.decides leaves.next leaves.gone
  exact ⟨tried, rest, before, m', last, (rejects.append_eq start).symm, cut, rejects, decides⟩

/-- The pairs `{ false } { 1 } { true } { 2 }`. -/
def falseThenTrue : List (Value × Value) :=
  [(.quote 0 [.bool false], .quote 1 [.int 1]), (.quote 2 [.bool true], .quote 3 [.int 2])]

theorem cond_first_match_second :
    ∃ n turns x y tried rest before m' last,
      (Machine.staged [.array 4 (inTurn falseThenTrue)] [.body [.op (.primitive .cond) .none]]
        0).act = .goes (some .checkpoint) n ∧
      Moment.Leaves Frame.isCond [.body [], .body []] (.running n) turns x y ∧ turns.length = 3 ∧
      y.machine.frames.toList = [.body [.int 2], .body [], .body []] ∧
      falseThenTrue = tried ++ rest ∧ turns = before ++ last ∧
      Machine.Rejects [.body [], .body []] n tried rest before m' ∧
      Machine.Decides [.body [], .body []] m' rest last x y := by
  let m : Machine := .staged [.array 4 (inTurn falseThenTrue)]
    [.body [.op (.primitive .cond) .none]] 0
  let s : Machine := .staged [.array 4 (inTurn falseThenTrue)] [.body []] 0
  let check : Frame := .condCheck (.quote 1 [.int 1]) (falseThenTrue.drop 1)
  let check' : Frame := .condCheck (.quote 3 [.int 2]) []
  let n : Machine := .staged [] [.condTest falseThenTrue, .body []] 1
  let found : Machine := .staged [.bool false] [check, .body []] 2
  let again : Machine := .staged [] [.condTest (falseThenTrue.drop 1), .body []] 2
  let found' : Machine := .staged [.bool true] [check', .body []] 3
  let chosen : Machine := .staged [] [.body [.int 2], .body []] 3
  have performs : m.Performs (.primitive .cond) s := ⟨rfl, .checkpoint, rfl⟩
  have goes : m.act = .goes (some .checkpoint) n := by
    have ran : Exec.invokeOperation (.primitive .cond) s = .ok () { n with checkpoints := 0 } :=
      (Exec.invokeOperation_of_plain rfl s).trans rfl
    change Machine.actAfterAdvance
      ((do Exec.invokeOperation (.primitive .cond); pure .checkpoint : Exec Tick) s) = _
    simp only [Bind.bind, EStateM.bind, ran]
    rfl
  have code : PairsCode falseThenTrue := by
    intro pair member
    rcases List.mem_pair.1 member with rfl | rfl <;> exact ⟨rfl, rfl⟩
  have off (f g : Frame) (operands : List Value) (k : Nat) :
      ¬ (Moment.running (.staged operands [f, g, .body []] k)).Turns [.body [], .body []] := by
    rintro ⟨_, _, frames⟩
    cases frames
  have first : Moment.ofAct n.act =
      .running (.staged [] [.body [.bool false], check, .body []] 1) :=
    (Machine.act_condTest ⟨rfl, rfl⟩).trans (Moment.invoking_quote (by decide))
  have second : Moment.ofAct again.act =
      .running (.staged [] [.body [.bool true], check', .body []] 2) :=
    (Machine.act_condTest ⟨rfl, rfl⟩).trans (Moment.invoking_quote (by decide))
  have last : Moment.ofAct found'.act = .running chosen :=
    (Machine.act_of_true ⟨rfl, rfl⟩ rfl).trans (Moment.invoking_quote (by decide))
  let Tends := Moment.Tended Frame.isCond [.body [], .body []] (.running n)
  have tended : Tends [n, found, again] (.running found') := by
    have tests : Tends [n]
        (.running (.staged [] [.body [.bool false], check, .body []] 1)) := by
      rw [← first]
      exact .turn .start ⟨.condTest falseThenTrue, rfl, [], rfl⟩ ⟨_, rfl, rfl⟩
    have pushed := tests.above ⟨check, rfl, [_], rfl⟩ (off _ _ _ _) (.act _)
    have ended : Tends [n] (.running found) :=
      pushed.above ⟨check, rfl, [_], rfl⟩ (off (.body []) check [.bool false] 2) (.act _)
    have rejected : Tends [n, found] (.running again) := by
      have turn := ended.turn ⟨check, rfl, [], rfl⟩ ⟨check, rfl, rfl⟩
      rwa [Machine.act_of_false ⟨rfl, rfl⟩ rfl] at turn
    have tests' : Tends [n, found, again]
        (.running (.staged [] [.body [.bool true], check', .body []] 2)) := by
      rw [← second]
      exact rejected.turn ⟨.condTest (falseThenTrue.drop 1), rfl, [], rfl⟩ ⟨_, rfl, rfl⟩
    have pushed' := tests'.above ⟨check', rfl, [_], rfl⟩ (off _ _ _ _) (.act _)
    exact pushed'.above ⟨check', rfl, [_], rfl⟩ (off (.body []) check' [.bool true] 3) (.act _)
  have next : (Moment.running found').Next (.running chosen) := by
    rw [← last]
    exact .act found'
  have gone : ¬ (Moment.running chosen).Has Frame.isCond [.body [], .body []] := by
    rintro ⟨f, cond, upheld⟩
    cases upheld.eq_of_length rfl
    cases cond
  have leaves : Moment.Leaves Frame.isCond [.body [], .body []] (.running n) _ _ _ :=
    ⟨tended, ⟨check', rfl, [], rfl⟩, next, gone⟩
  have operands : s.operands.toList = [.nil] ++ [.array 4 (inTurn falseThenTrue)] := rfl
  obtain ⟨_, _, _, _, ends⟩ := cond_first_match performs goes operands code
  obtain ⟨tried, rest, before, m', turns, split, cut, rejects, decides⟩ :=
    ends _ _ _ leaves
  exact ⟨n, _, _, _, tried, rest, before, m', turns, goes, leaves, rfl, rfl, split, cut, rejects,
    decides⟩

end Catena
