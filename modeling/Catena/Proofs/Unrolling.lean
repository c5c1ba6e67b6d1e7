import Catena.Proofs.Accessors
import Catena.Proofs.Elsewhere

set_option autoImplicit false

/-!
Iterations are their unrolling. What is iterated over is fixed when the operator runs: the integers
of a range, the values of an array or the characters of a text. For each of them the loop pushes it,
with its position if that is wanted, and runs its code once on what the round before has left. When
the last round is through the machine is the one that comes of making these rounds one after the
other, without a loop; and a break leaves the loop in the middle of a round, after which there are
no more.
-/

namespace Catena

/-- The frames of an iteration. -/
def Frame.isIterate : Frame → Bool
  | .iterate .. => true
  | _ => false

/-! ### What is iterated over -/

namespace Source

/-- The operands that say what to iterate over. -/
inductive Given : Source → List Value → Prop
  | range (start stop : Int64) : Given (.range start stop) [.int start, .int stop]
  | items (id : Nat) (values : List Value) : Given (.items values) [.array id values]
  | chars (text : String) : Given (.chars text.toList) [.str text]

/-- The elements, in order. A range goes from its start up to its end, which does not belong to it;
of a text they are texts of one character. -/
def Lists : Source → List Value → Prop
  | .range start stop, elements => elements.length = (stop.toInt - start.toInt).toNat ∧
      ∀ (i : Nat) (v : Value), elements[i]? = some v →
        ∃ k : Int64, v = .int k ∧ k.toInt = start.toInt + i
  | .items values, elements => elements = values
  | .chars text, elements => elements = text.map fun c => .str (String.singleton c)

/-- What is pushed for an element: the element, and its position if that is wanted. -/
def Pushes (withIndex : Bool) (i : Nat) (v : Value) (pushed : List Value) : Prop :=
  if withIndex then
    ∃ k : Int64, pushed = [v, .int k] ∧ ((i : Int) ≤ Int64.maxValue.toInt → k.toInt = i)
  else pushed = [v]

/-- What is pushed in each round of an iteration. -/
def Rounds (source : Source) (withIndex : Bool) (rounds : List (List Value)) : Prop :=
  ∃ elements, source.Lists elements ∧ rounds.length = elements.length ∧
    ∀ i v, elements[i]? = some v → ∃ pushed, rounds[i]? = some pushed ∧ Pushes withIndex i v pushed

/-- The element as an integer, without wrapping around. -/
theorem toInt_element {start stop : Int64} {i : Nat} (inside : i < (range start stop).length) :
    (start + Int64.ofNat i).toInt = start.toInt + i := by
  have lower := start.le_toInt
  have upper := stop.toInt_lt
  have size : (Int64.size : Int) = 18446744073709551616 := rfl
  rw [length] at inside
  rw [Int64.toInt_add, Int64.toInt_ofNat', Int.add_bmod_bmod, Int.bmod_eq_of_le] <;> omega

variable (source : Source)

/-- The elements at the indices below the length. -/
def elements : List Value := (List.range source.length).map source.element

theorem lists_elements : source.Lists source.elements := by
  cases source with
  | range start stop =>
    refine ⟨by simp [elements, length], fun i v found => ?_⟩
    simp only [elements, List.getElem?_map, Option.map_eq_some_iff, List.getElem?_eq_some_iff,
      List.length_range, List.getElem_range] at found
    obtain ⟨_, ⟨inside, rfl⟩, rfl⟩ := found
    exact ⟨_, rfl, toInt_element inside⟩
  | items values =>
    refine List.ext_getElem (by simp [elements, length]) fun i _ inside => ?_
    simp [elements, element, inside]
  | chars text =>
    refine List.ext_getElem (by simp [elements, length]) fun i _ inside => ?_
    rw [List.length_map] at inside
    simp [elements, element, inside, Char.toString]

end Source

/-- An iteration that an operator has begun. -/
structure Iteration where
  source : Source
  withIndex : Bool
  body : List Value

namespace Iteration

variable (it : Iteration)

/-- Its frame when it comes to an index. -/
def frame (i : Nat) : Frame := .iterate it.source i it.withIndex it.body

/-- What it pushes at an index. -/
def round (i : Nat) : List Value :=
  if it.withIndex then [it.source.element i, .int (Int64.ofNat i)] else [it.source.element i]

def rounds : List (List Value) := (List.range it.source.length).map it.round

theorem pushes_round (i : Nat) :
    Source.Pushes it.withIndex i (it.source.element i) (it.round i) := by
  unfold Source.Pushes round
  split
  · refine ⟨_, rfl, fun fits => ?_⟩
    rw [Int64.toInt_maxValue] at fits
    exact Int64.toInt_ofNat_of_lt (by omega)
  · rfl

theorem rounds_rounds : it.source.Rounds it.withIndex it.rounds := by
  refine ⟨it.source.elements, it.source.lists_elements, by simp [rounds, Source.elements], ?_⟩
  intro i v found
  simp only [Source.elements, List.getElem?_map, Option.map_eq_some_iff] at found
  obtain ⟨j, found, rfl⟩ := found
  obtain ⟨_, rfl⟩ := List.getElem?_eq_some_iff.1 found
  refine ⟨it.round i, by simp [rounds, found], ?_⟩
  rw [List.getElem_range]
  exact it.pushes_round i

theorem length_rounds : it.rounds.length = it.source.length := by simp [rounds]

variable {it} in
theorem take_succ_rounds {i : Nat} (inside : i < it.source.length) :
    it.rounds.take (i + 1) = it.rounds.take i ++ [it.round i] := by
  rw [List.take_add_one]
  simp [rounds, inside]

end Iteration

/-! ### Rounds without a loop -/

/-- Some code has just been begun. Without any, there is a checkpoint instead. -/
def Moment.starting (code : List Value) (m : Machine) : Moment :=
  if code.isEmpty then .running m.checkpoint.2 else .invoking (.quote 0 code) m

theorem Moment.suffix_starting (code : List Value) (m : Machine) :
    m.frames.toList <:+ (Moment.starting code m).machine.frames.toList := by
  unfold starting
  split
  · exact List.suffix_refl _
  · exact suffix_invoking _ m

namespace Machine

/-- Some code is run once, above the frames that are there. -/
structure RunsOnce (code : List Value) (m m' : Machine) : Prop where
  atop : Moment.Atop m.frames.toList (.starting code m) (.running m')
  rests : Moment.Rests m.frames.toList (.running m')

/-- For each of some lists of operands, one after the other, these are pushed and the code is run
once. -/
inductive Unrolls (code : List Value) (m : Machine) : List (List Value) → Machine → Prop
  | none : Unrolls code m [] m
  | another {done : List (List Value)} {pushed : List Value} {m₁ m₂ : Machine} :
      Unrolls code m done m₁ → RunsOnce code (m₁.given pushed) m₂ →
      Unrolls code m (done ++ [pushed]) m₂

variable {code : List Value} {m m' : Machine} {f g : Frame} {below : List Frame}

/-- What code does above a frame that waits it does above any other one. -/
theorem RunsOnce.elsewhere (runs : m.RunsOnce code m') (frames : m.frames.toList = f :: below)
    (waits : f.waits = true) (waits' : g.waits = true) :
    (m.on (g :: below)).RunsOnce code (m'.on (g :: below)) := by
  obtain ⟨atop, rests⟩ := runs
  rw [frames] at atop rests
  have start : Translation.verbatim.Mirrors (f :: below) (g :: below) [] m (m.on (g :: below)) :=
    Translation.mirrors_verbatim_iff.2 ⟨rfl, frames, rfl⟩
  have begun : Moment.Mirrored (f :: below) (g :: below) (.starting code m)
      (.starting code (m.on (g :: below))) := by
    unfold Moment.starting
    split
    · exact .running start.checkpoint
    · exact Moment.mirrored_invoking start _
  exact ⟨begun.atop_running waits waits' atop rests, rests.1, rfl⟩

theorem Unrolls.frames {rounds : List (List Value)} (unrolls : m.Unrolls code rounds m') :
    m'.frames.toList = m.frames.toList := by
  induction unrolls with
  | none => rfl
  | another _ runs ih => exact runs.rests.2.trans ih

end Machine

/-! ### The turns of an iteration -/

theorem Frame.waits_of_isIterate (f : Frame) (is : f.isIterate = true) : f.waits = true := by
  cases f with
  | iterate => rfl
  | _ => cases is

namespace Iteration

variable {it : Iteration} {i : Nat} {below : List Frame} {m n : Machine}

/-- While there are elements left, the next is pushed and the code is begun. -/
theorem act_more (rests : Moment.Rests (it.frame i :: below) (.running m))
    (more : i < it.source.length) :
    Moment.ofAct m.act =
      .starting it.body ((m.given (it.round i)).on (it.frame (i + 1) :: below)) := by
  obtain ⟨source, withIndex, body⟩ := it
  rw [Machine.act_of_rests rests, frame, Exec.advance, if_pos more]
  cases body with
  | nil => cases withIndex <;> rfl
  | cons v rest =>
    let pushed := (m.given (round ⟨source, withIndex, v :: rest⟩ i)).on
      (frame ⟨source, withIndex, v :: rest⟩ (i + 1) :: below)
    have begun := Machine.actAfterAdvance_thenInternal (Exec.pushFrame (.body (v :: rest))) pushed
    have same : Moment.invoking (.quote 0 (v :: rest)) pushed =
        .ofAct (Machine.actAfterSignal (Exec.pushFrame (.body (v :: rest)) pushed)) := by
      rw [Moment.invoking, Exec.invoke]
    refine Eq.trans ?_ same.symm
    rw [← begun]
    cases withIndex <;> rfl

theorem act_done (rests : Moment.Rests (it.frame i :: below) (.running m))
    (done : it.source.length ≤ i) : m.act = .goes none (m.on below) := by
  rw [Machine.act_of_rests rests, frame, Exec.advance, if_neg (Nat.not_lt.2 done)]
  rfl

/-! ### Laps -/

/-- The first rounds of an iteration, from `n` on, where it begins. The list holds the machines at
which its turn came. -/
inductive Laps (it : Iteration) (below : List Frame) (n : Machine) :
    Nat → List Machine → Machine → Prop
  | none : Laps it below n 0 [] n
  | another {i : Nat} {turns : List Machine} {m m' : Machine} : Laps it below n i turns m →
      i < it.source.length →
      ((m.given (it.round i)).on (it.frame (i + 1) :: below)).RunsOnce it.body m' →
      Laps it below n (i + 1) (turns ++ [m]) m'

variable {turns : List Machine} {g : Frame}

theorem Laps.length (laps : it.Laps below n i turns m) : turns.length = i := by
  induction laps with
  | none => rfl
  | another _ _ _ ih => rw [List.length_append, ih, List.length_singleton]

theorem Laps.le (laps : it.Laps below n i turns m) : i ≤ it.source.length := by
  cases laps with
  | none => exact Nat.zero_le _
  | another _ more _ => exact more

/-- Made above any other frame that waits, the rounds are the same without the loop. -/
theorem Laps.unrolls (laps : it.Laps below n i turns m) (waits : g.waits = true) :
    (n.on (g :: below)).Unrolls it.body (it.rounds.take i) (m.on (g :: below)) := by
  induction laps with
  | none => exact .none
  | another _ more runs ih =>
    rw [take_succ_rounds more]
    exact .another ih (runs.elsewhere rfl rfl waits)

variable (start : Moment.Rests (it.frame 0 :: below) (.running n))
include start

theorem Laps.rests (laps : it.Laps below n i turns m) :
    Moment.Rests (it.frame i :: below) (.running m) := by
  cases laps with
  | none => exact start
  | another _ _ runs => exact runs.rests

/-- The loop makes each round that can be made without it. -/
theorem exists_laps {done rest : List (List Value)} {u : Machine} (waits : g.waits = true)
    (unrolls : (n.on (g :: below)).Unrolls it.body done u) (prior : it.rounds = done ++ rest) :
    ∃ turns, it.Laps below n done.length turns (u.on (it.frame done.length :: below)) := by
  induction unrolls generalizing rest with
  | none =>
    refine ⟨[], ?_⟩
    rw [Machine.on_on, List.length_nil, Machine.on_eq_self start.2]
    exact .none
  | @another done pushed m₁ m₂ unrolls runs ih =>
    rw [List.append_assoc] at prior
    obtain ⟨turns, laps⟩ := ih prior
    have more : done.length < it.source.length := by
      rw [← it.length_rounds, prior]
      simp
    have round : it.round done.length = pushed := by
      have found : it.rounds[done.length]? = some pushed := by rw [prior]; simp
      simpa [rounds, more] using found
    refine ⟨turns ++ [m₁.on (it.frame done.length :: below)], ?_⟩
    rw [List.length_append, List.length_singleton]
    refine .another laps more ?_
    rw [round]
    exact runs.elsewhere unrolls.frames waits rfl

theorem Laps.tended (laps : it.Laps below n i turns m) :
    Moment.Tended Frame.isIterate below (.running n) turns (.running m) := by
  induction laps with
  | none => exact .start
  | another laps more runs ih =>
    have rests := laps.rests start
    have turned := ih.turn ⟨_, rfl, [], rests.2.symm⟩ ⟨_, rests⟩
    rw [act_more rests more] at turned
    exact turned.atop rfl runs.atop

/-! ### The whole of an iteration -/

/-- What an iteration has come to at a moment at which it is still there. -/
inductive Phase (it : Iteration) (below : List Frame) (n : Machine) : List Machine → Moment → Prop
  | first : Phase it below n [] (.running n)
  | within {i : Nat} {turns : List Machine} {m : Machine} {x : Moment} :
      it.Laps below n i turns m → i < it.source.length →
      Moment.Atop (it.frame (i + 1) :: below)
        (.starting it.body ((m.given (it.round i)).on (it.frame (i + 1) :: below))) x →
      Phase it below n (turns ++ [m]) x

variable {x y : Moment}

omit start in
/-- The code runs above the iteration. -/
theorem suffix_of_atop {f : Frame}
    (atop : Moment.Atop (f :: below) (.starting it.body (m.on (f :: below))) x) :
    f :: below <:+ x.machine.frames.toList :=
  atop.suffix (Moment.suffix_starting it.body (m.on (f :: below)))

omit start in
/-- When the turn of the iteration comes, it has made whole rounds. -/
theorem Phase.laps (phase : it.Phase below n turns (.running m))
    (turn : Moment.Turns below (.running m)) : ∃ i, it.Laps below n i turns m := by
  cases phase with
  | first => exact ⟨0, .none⟩
  | within laps more atop =>
    exact ⟨_, .another laps more ⟨atop, .of_turns turn (suffix_of_atop atop)⟩⟩

/-- A turn of the iteration after which it is still there. -/
theorem Phase.turn (phase : it.Phase below n turns (.running m))
    (turn : Moment.Turns below (.running m))
    (still : (Moment.ofAct m.act).Has Frame.isIterate below) :
    it.Phase below n (turns ++ [m]) (.ofAct m.act) := by
  obtain ⟨i, laps⟩ := phase.laps turn
  have rests := laps.rests start
  by_cases more : i < it.source.length
  · rw [act_more rests more]
    exact .within laps more .refl
  · rw [act_done rests (Nat.not_lt.1 more)] at still
    exact absurd still (m.not_has_on _ _)

/-- A moment that is not the turn of the iteration and after which it is still there. -/
theorem Phase.above (phase : it.Phase below n turns x) (busy : ¬ x.Turns below) (next : x.Next y)
    (still : y.Has Frame.isIterate below) : it.Phase below n turns y := by
  cases phase with
  | first => exact absurd ⟨_, start⟩ busy
  | within laps more atop =>
    rcases next.atop_or Frame.waits_of_isIterate rfl (suffix_of_atop atop) busy with
      kept | ⟨_, gone⟩
    · exact .within laps more (atop.trans kept)
    · exact absurd still gone

theorem Phase.of_tended (tended : Moment.Tended Frame.isIterate below (.running n) turns x)
    (there : x.Has Frame.isIterate below) : it.Phase below n turns x := by
  induction tended with
  | start => exact .first
  | turn _ has turn ih => exact (ih has).turn start turn there
  | above _ has busy next ih => exact (ih has).above start busy next there

end Iteration

/-- A break that takes an iteration away leaves just the frames below it. -/
theorem Iteration.frames_of_break {it : Iteration} {i : Nat} {m : Machine} {below : List Frame}
    {y : Moment} (broken : m.control = .break) (upheld : it.frame i :: below <:+ m.frames.toList)
    (next : (Moment.running m).Next y) (gone : ¬ y.Has Frame.isIterate below) :
    y.machine.frames.toList = below := by
  obtain ⟨own, frames⟩ := upheld
  have edge : (it.frame i).loopEdge? = some true := rfl
  cases next with
  | answered reply asleep => cases broken.symm.trans asleep
  | act m =>
    have kept : ¬ it.frame i :: below <:+ (Moment.ofAct m.act).machine.frames.toList :=
      fun upheld => gone ⟨_, rfl, upheld⟩
    simp only [Machine.act, broken, Moment.frames_ofAct_actAfterSignal] at kept ⊢
    rcases Exec.frames_leaveLoop { m with control := .none } with
      ⟨free, _⟩ | ⟨above, h, lower, isLoop, frames', passed, found, after⟩
    · have none := free (it.frame i) (frames ▸ List.mem_append_right _ List.mem_cons_self)
      cases none.symm.trans edge
    · rw [after] at kept ⊢
      rcases suffix_of_split (frames'.symm.trans frames.symm) passed (by simp [edge]) with
        ⟨rfl, same⟩ | beneath
      · cases found.symm.trans edge
        exact same
      · cases isLoop with
        | true => exact absurd beneath kept
        | false => exact absurd (beneath.trans (List.suffix_cons h _)) kept

/-- How an iteration comes to its end from `n` on, where it has put up its frame on the frames
`below`: the machines at which its turn came before, the last moment at which it is there, and the
next. In its place stands the frame `g` when its rounds are made without it. -/
inductive Machine.Unrolled (code : List Value) (below : List Frame) (g : Frame) (n : Machine)
    (rounds : List (List Value)) : List Machine → Moment → Moment → Prop
  /-- All rounds have been made. -/
  | through {turns : List Machine} {f : Frame} {u : Machine} : turns.length = rounds.length →
      (n.on (g :: below)).Unrolls code rounds u → u.control = .none →
      Unrolled code below g n rounds turns (.running (u.on (f :: below))) (.running (u.on below))
  /-- In the middle of a round an error, a break or a tail call leaves the code, and the iteration
  with it. The code has been begun once more than rounds have been made. -/
  | interrupted {done rest : List (List Value)} {pushed : List Value} {turns : List Machine}
      {f : Frame} {u : Machine} {x y : Moment} : rounds = done ++ pushed :: rest →
      turns.length = done.length + 1 → (n.on (g :: below)).Unrolls code done u →
      Moment.Atop (f :: below) (.starting code ((u.given pushed).on (f :: below))) x →
      x.Interrupted →
      (∀ m, x = .running m → m.control = .break → y.machine.frames.toList = below) →
      Unrolled code below g n rounds turns x y

namespace Iteration

variable {it : Iteration} {below : List Frame} {n : Machine} {turns : List Machine} {x y : Moment}
  {g : Frame} (start : Moment.Rests (it.frame 0 :: below) (.running n))
include start

theorem unrolled_of_leaves (waits : g.waits = true)
    (leaves : Moment.Leaves Frame.isIterate below (.running n) turns x y) :
    n.Unrolled it.body below g it.rounds turns x y := by
  obtain ⟨tended, there, next, gone⟩ := leaves
  have phase := Phase.of_tended start tended there
  by_cases turn : x.Turns below
  · cases x with
    | thrown e m =>
      obtain ⟨_, rests⟩ := turn
      cases rests
    | running m =>
      obtain ⟨i, laps⟩ := phase.laps turn
      have rests := laps.rests start
      cases next with
      | answered reply asleep => cases rests.1.symm.trans asleep
      | act m =>
        by_cases more : i < it.source.length
        · rw [act_more rests more] at gone
          exact absurd ⟨_, rfl, suffix_of_atop .refl⟩ gone
        · obtain rfl : i = it.source.length := Nat.le_antisymm laps.le (Nat.not_lt.1 more)
          have unrolls := laps.unrolls waits
          rw [← it.length_rounds, List.take_length] at unrolls
          have ends : n.Unrolled it.body below g it.rounds turns
              (.running ((m.on (g :: below)).on (it.frame it.source.length :: below)))
              (.running ((m.on (g :: below)).on below)) :=
            .through (laps.length.trans it.length_rounds.symm) unrolls rests.1
          rw [Machine.on_on, Machine.on_on, Machine.on_eq_self rests.2] at ends
          rwa [act_done rests (Nat.le_refl _)]
  · cases phase with
    | first => exact absurd ⟨_, start⟩ turn
    | @within i turns m x laps more atop =>
      have upheld := suffix_of_atop atop
      rcases next.atop_or Frame.waits_of_isIterate rfl upheld turn with kept | ⟨cause, _⟩
      · exact absurd ⟨_, rfl, suffix_of_atop (atop.trans kept)⟩ gone
      · have prior : it.rounds = it.rounds.take i ++ it.round i :: it.rounds.drop (i + 1) := by
          rw [← List.singleton_append, ← List.append_assoc, ← take_succ_rounds more,
            List.take_append_drop]
        refine .interrupted (f := it.frame (i + 1)) prior ?_ (laps.unrolls waits) atop cause ?_
        · rw [List.length_append, laps.length, List.length_singleton, List.length_take,
            it.length_rounds, Nat.min_eq_left (Nat.le_of_lt more)]
        · rintro last rfl broken
          exact frames_of_break broken upheld next gone

/-- An iteration whose rounds can be made without it comes to the same end. -/
theorem leaves_of_unrolls {u : Machine} (waits : g.waits = true)
    (unrolls : (n.on (g :: below)).Unrolls it.body it.rounds u) :
    ∃ turns last, Moment.Leaves Frame.isIterate below (.running n) turns (.running last)
      (.running (u.on below)) := by
  obtain ⟨turns, laps⟩ := exists_laps start waits unrolls (List.append_nil _).symm
  have rests := laps.rests start
  have left := act_done rests (Nat.le_of_eq it.length_rounds.symm)
  refine ⟨turns, _, laps.tended start, ⟨_, rfl, [], rests.2.symm⟩, ?_, u.not_has_on _ _⟩
  have next := Moment.Next.act (u.on (it.frame it.rounds.length :: below))
  rwa [left] at next

end Iteration

/-! ### The operator -/

theorem Exec.errs_popSource (operator : String) : Errs (popSource operator) := by
  refine steady_pop.errs.bind fun v => ?_
  split
  · exact errs_popAs.bind fun _ => errs_pure _
  · exact errs_pure _
  · exact errs_pure _
  · exact errs_fail _

theorem Exec.errs_iterate (withIndex : Bool) : Errs (iterate withIndex) :=
  errs_popAs.bind fun _ => (errs_popSource _).bind fun _ => errs_pushFrame _

theorem Exec.of_popSource {operator : String} {s s' : Machine} {source source' : Source}
    {X taken : List Value} (given : source.Given taken) (operands : s.operands.toList = X ++ taken)
    (ran : popSource operator s = .ok source' s') :
    source' = source ∧ s.Spends taken.length s' := by
  obtain ⟨v, left, popped, rest⟩ := bind_eq_ok ran
  cases given with
  | range start stop =>
    rw [List.append_cons] at operands
    obtain ⟨rfl, spent, operands⟩ := of_pop_eq_ok operands popped
    obtain ⟨k, left', popped, rest⟩ := bind_eq_ok rest
    obtain ⟨w, popped, read⟩ := popAs_eq_ok_iff.1 popped
    obtain ⟨rfl, spent', _⟩ := of_pop_eq_ok operands popped
    cases read
    cases rest
    exact ⟨rfl, spent.trans spent'⟩
  | items id values =>
    obtain ⟨rfl, spent, _⟩ := of_pop_eq_ok operands popped
    cases rest
    exact ⟨rfl, spent⟩
  | chars text =>
    obtain ⟨rfl, spent, _⟩ := of_pop_eq_ok operands popped
    cases rest
    exact ⟨rfl, spent⟩

/-- An iteration takes its code and what to iterate over and puts up its frame. -/
theorem Exec.of_iterate {withIndex : Bool} {s s' : Machine} {source : Source}
    {X taken body : List Value} {id : Nat} (given : source.Given taken)
    (operands : s.operands.toList = X ++ (taken ++ [.quote id body]))
    (ran : iterate withIndex s = .ok () s') :
    s' = s.having (s.operands.spend (taken.length + 1))
      (.iterate source 0 withIndex body :: s.frames.toList) := by
  obtain ⟨code, left, popped, rest⟩ := bind_eq_ok ran
  obtain ⟨found, left', read, pushed⟩ := bind_eq_ok rest
  obtain ⟨v, popped, isCode⟩ := popAs_eq_ok_iff.1 popped
  rw [← List.append_assoc] at operands
  obtain ⟨rfl, spent, operands⟩ := of_pop_eq_ok operands popped
  cases isCode
  obtain ⟨rfl, spent'⟩ := of_popSource given operands read
  have both := spent.trans spent'
  rw [pushFrame_eq_ok pushed, both.machine, Nat.add_comm]
  exact s.having_push _ _

/-- Take any source and any quotation, and any run of the machine from where an iteration has put up
its frame. What is left of the operands is what was below, and the rounds are those of the source
as it was given. If the iteration is gone, all rounds have been made, and the machine is the one
that comes of making them without the loop; or it was interrupted in the middle of a round, and by
then the code was begun in just this round and in the ones before it. If the rounds can all be made
without the loop, it comes to that end. -/
theorem iterate_unrolls {m s n : Machine} {said : Option Step} {source : Source} {withIndex : Bool}
    {X taken body : List Value} {id : Nat}
    (performs : m.Performs (.primitive (.iterate withIndex)) s) (goes : m.act = .goes said n)
    (operands : s.operands.toList = X ++ (taken ++ [.quote id body])) (given : source.Given taken) :
    n.operands.toList = X ∧ n.operands.floors = s.operands.floors ∧ n.scopes = s.scopes ∧
    n.frames.toList = .iterate source 0 withIndex body :: s.frames.toList ∧
    ∃ rounds, source.Rounds withIndex rounds ∧ ∀ g : Frame, g.waits = true →
      (∀ turns x y, Moment.Leaves Frame.isIterate s.frames.toList (.running n) turns x y →
        n.Unrolled body s.frames.toList g rounds turns x y) ∧
      ∀ u, (n.on (g :: s.frames.toList)).Unrolls body rounds u →
        ∃ turns last, Moment.Leaves Frame.isIterate s.frames.toList (.running n) turns
          (.running last) (.running (u.on s.frames.toList)) := by
  obtain ⟨k, ran⟩ := performs.ran_plain goes rfl (Exec.errs_iterate withIndex)
  have put := Exec.of_iterate given operands ran
  let it : Iteration := ⟨source, withIndex, body⟩
  have start : Moment.Rests (it.frame 0 :: s.frames.toList) (.running n) :=
    ⟨(congrArg Machine.control put).trans performs.calm,
      congrArg (fun m => m.frames.toList) put⟩
  have left : n.operands = s.operands.spend (taken.length + 1) := congrArg Machine.operands put
  refine ⟨?_, by rw [left]; rfl, (congrArg Machine.scopes put :), start.2, it.rounds,
    it.rounds_rounds, fun g waits => ⟨?_, ?_⟩⟩
  · have spent := Operands.toList_spend operands
    rwa [List.length_append, List.length_singleton, ← left] at spent
  · exact fun turns x y leaves => it.unrolled_of_leaves start waits leaves
  · exact fun u unrolls => it.leaves_of_unrolls start waits unrolls

/-- The loop `-1 1 { nil } fori`. -/
theorem iterate_unrolls_range :
    ∃ n rounds turns x y,
      (Machine.staged [.quote 3 [.nil], .int 1, .int (-1)]
        [.body [.op (.primitive (.iterate true)) .none]] 0).act = .goes (some .checkpoint) n ∧
      Source.Rounds (.range (-1) 1) true rounds ∧
      Moment.Leaves Frame.isIterate [.body [], .body []] (.running n) turns x y ∧
      y.machine.operands.toList = [.nil, .int (-1), .int 0, .nil, .int 0, .int 1, .nil] ∧
      n.Unrolled [.nil] [.body [], .body []] (.loop []) rounds turns x y := by
  let m : Machine := .staged [.quote 3 [.nil], .int 1, .int (-1)]
    [.body [.op (.primitive (.iterate true)) .none]] 0
  let s : Machine := .staged [.quote 3 [.nil], .int 1, .int (-1)] [.body []] 0
  let it : Iteration := ⟨.range (-1) 1, true, [.nil]⟩
  let n : Machine := .staged [] [it.frame 0, .body []] 1
  have performs : m.Performs (.primitive (.iterate true)) s := ⟨rfl, .checkpoint, rfl⟩
  have goes : m.act = .goes (some .checkpoint) n := by
    have ran : Exec.invokeOperation (.primitive (.iterate true)) s =
        .ok () { n with checkpoints := 0 } := (Exec.invokeOperation_of_plain rfl s).trans rfl
    change Machine.actAfterAdvance
      ((do Exec.invokeOperation (.primitive (.iterate true)); pure .checkpoint : Exec Tick) s) = _
    simp only [Bind.bind, EStateM.bind, ran]
    rfl
  have runs (operands : List Value) (k : Nat) :
      (Machine.staged operands [.loop [], .body []] k).RunsOnce [.nil]
        (.staged (.nil :: operands) [.loop [], .body []] (k + 1)) := by
    have room : 3 < 100000 := by decide
    have begun : Moment.starting [.nil] (.staged operands [.loop [], .body []] k) =
        .running (.staged operands [.body [.nil], .loop [], .body []] k) :=
      Moment.invoking_quote (m := .staged operands [.loop [], .body []] k) room
    have off (code : List Value) (operands : List Value) (k : Nat) :
        ¬ Moment.Rests [.loop [], .body [], .body []]
          (.running (.staged operands [.body code, .loop [], .body []] k)) := by
      rintro ⟨_, frames⟩
      cases frames
    refine ⟨?_, rfl, rfl⟩
    rw [begun]
    exact .tail (.single ⟨.act _, off _ _ _, ⟨[_], rfl⟩, ⟨[.body []], rfl⟩⟩)
      ⟨.act (.staged (.nil :: operands) [.body [], .loop [], .body []] (k + 1)),
        off [] (.nil :: operands) (k + 1), ⟨[_], rfl⟩, ⟨[], rfl⟩⟩
  have unrolls : (n.on [.loop [], .body [], .body []]).Unrolls [.nil] it.rounds
      (.staged [.nil, .int 1, .int 0, .nil, .int 0, .int (-1)] [.loop [], .body []] 3) :=
    .another (.another .none (runs [.int 0, .int (-1)] 1))
      (runs [.int 1, .int 0, .nil, .int 0, .int (-1)] 2)
  obtain ⟨turns, last, leaves⟩ := it.leaves_of_unrolls ⟨rfl, rfl⟩ rfl unrolls
  obtain ⟨_, _, _, _, rounds, are, ends⟩ :=
    iterate_unrolls (X := [.nil]) performs goes rfl (.range (-1) 1)
  exact ⟨n, rounds, turns, _, _, goes, are, leaves, rfl, (ends (.loop []) rfl).1 _ _ _ leaves⟩

end Catena
