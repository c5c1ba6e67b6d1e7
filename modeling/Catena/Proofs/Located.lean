import Catena.Proofs.Awaiting
import Catena.Proofs.Brackets

set_option autoImplicit false

/-!
The places of errors. An error is put at the place where the machine is when it comes up. A machine
is at the place of the token that it has run last, or of a name or an operation that was read from
an earlier one, as these keep their places wherever they get: into containers, closures and scopes.
So the place of every error is that of a token that has been run. Only before its first token a
machine is at no such place, and then it has nothing to fail with.
-/

namespace Catena

/-- The error is at the place of one of the tokens. -/
def LocatedError.StemsFrom (seen : List Token) (e : LocatedError) : Prop :=
  ∃ t ∈ seen, e.origin = some t.origin

/-- Every place is that of one of the tokens. -/
def Rule.located (seen : List Token) : Rule where
  marker _ := True
  place origin := ∃ t ∈ seen, origin = some t.origin
  name _ := True
  self := trivial
  loose := True

section

variable {seen more : List Token} {t : Token}

theorem Rule.admits_located (m : Machine) : Exec.Admits (.located seen) m :=
  fun _ _ _ _ _ => trivial

theorem Rule.reads_located (run : t ∈ seen) : (Rule.located seen).Reads t :=
  ⟨⟨t, run, rfl⟩, fun _ _ => ⟨trivial, trivial⟩, trivial, trivial⟩

theorem Rule.stricter_located : (Rule.located seen).Stricter (.located (seen ++ more)) where
  marker _ _ := trivial
  place _ := fun ⟨t, run, here⟩ => ⟨t, List.mem_append_left more run, here⟩
  name _ _ := trivial
  loose _ := trivial

theorem LocatedError.StemsFrom.mono {e : LocatedError} {tokens : List Token}
    (stems : e.StemsFrom seen) (part : seen <+: tokens) : e.StemsFrom tokens := by
  obtain ⟨t, run, here⟩ := stems
  exact ⟨t, part.subset run, here⟩

end

namespace Machine

variable {m m' : Machine} {e : LocatedError} {seen : List Token}

/-! ### Failures -/

theorem origin_abort (m : Machine) : m.abort.origin = m.origin := by
  have released := congrArg Machine.origin (m.releaseAll_eq m.frames.toList)
  exact released

theorem raiseError_failed {e' : LocatedError} (failed : m.raiseError e = (.failed e', m')) :
    e' = e ∧ m'.origin = m.origin := by
  unfold raiseError at failed
  split at failed
  · cases failed
  · cases failed
    exact ⟨rfl, m.origin_abort⟩

theorem fail_failed {error : RuntimeError} (failed : m.fail error = (.failed e, m')) :
    e.origin = some m'.origin := by
  obtain ⟨rfl, same⟩ := raiseError_failed failed
  rw [same]
  rfl

theorem interrupt_failed {signal : Signal} (failed : m.interrupt signal = (.failed e, m')) :
    e.origin = some m'.origin := by
  cases signal with
  | error error => exact fail_failed failed
  | _ => cases failed

theorem ending_eq_some {x : Step × Machine} {s : Step} (ended : ending x = (some s, m')) :
    x = (s, m') := by
  cases ended
  rfl

theorem turn_failed (failed : m.turn = (some (.failed e), m')) : e.origin = some m'.origin := by
  unfold turn at failed
  split at failed
  · have finished := ending_eq_some failed
    unfold finish at finished
    split at finished
    · exact fail_failed finished
    · cases finished
  · next f below _ =>
    cases ran : Exec.advance f below m with
    | ok tick m₁ =>
      rw [ran] at failed
      cases tick <;> cases failed
    | error signal m₁ =>
      rw [ran] at failed
      exact interrupt_failed (ending_eq_some failed)

theorem afterSignal_failed {x : EStateM.Result Signal Machine Unit}
    (failed : afterSignal x = (some (.failed e), m')) : e.origin = some m'.origin := by
  cases x with
  | ok _ _ => cases failed
  | error signal _ => exact interrupt_failed (ending_eq_some failed)

/-- A failure is at the place where the machine is, unless it is one that the host has answered. -/
theorem pass_failed (failed : m.pass = (some (.failed e), m')) :
    e.origin = some m'.origin ∨ m.control = .throw e := by
  by_cases calm : m.control = .none
  · rw [pass_of_calm calm] at failed
    exact .inl (turn_failed failed)
  · rw [pass_of_control calm] at failed
    unfold heed at failed
    cases control : m.control with
    | none => exact absurd control calm
    | suspend =>
      rw [control] at failed
      cases failed
    | throw e' =>
      rw [control] at failed
      obtain ⟨rfl, _⟩ := raiseError_failed (ending_eq_some failed)
      exact .inr rfl
    | «break» | tailCall _ =>
      rw [control] at failed
      exact .inl (afterSignal_failed failed)

/-! ### Steps -/

theorem Obeys.pass_located (obeys : m.Obeys (.located seen)) (run : m.upcoming ⊆ seen)
    {s : Option Step} (passed : m.pass = (s, m')) :
    m'.Obeys (.located seen) ∧ ∀ e, s = some (.failed e) → e.StemsFrom seen := by
  have after := obeys.pass (Rule.admits_located _) fun t next => Rule.reads_located (run next)
  rw [passed] at after
  refine ⟨after, fun e failed => ?_⟩
  subst failed
  rcases pass_failed passed with here | thrown
  · rw [LocatedError.StemsFrom, here]
    exact after.place
  · have parts := obeys.control
    rw [thrown] at parts
    exact (parts _ (List.mem_singleton_self _)).allowed.own

/-- All that the machine holds comes from the tokens that were run, or none has been run yet. -/
inductive Placed (fresh : Machine) : List Token → Machine → Prop
  | untouched (tokens : List Token) : Placed fresh [] (fresh.load tokens)
  /-- The program was empty. -/
  | finished : Placed fresh [] fresh
  | located {seen : List Token} {m : Machine} : m.Obeys (.located seen) → Placed fresh seen m

variable {maxFrames : Nat} {report : Option Report}

section

variable (placed : (pristine maxFrames report).Placed seen m)
include placed

theorem Placed.pass {s : Option Step} (passed : m.pass = (s, m')) :
    (pristine maxFrames report).Placed (seen ++ m.upcoming) m' ∧
      ∀ e, s = some (.failed e) → e.StemsFrom (seen ++ m.upcoming) := by
  cases placed with
  | untouched tokens =>
    cases tokens with
    | nil =>
      cases passed
      exact ⟨.finished, fun _ failed => by cases failed⟩
    | cons t rest =>
      -- The token moves the machine before anything else, so it does not matter where it was.
      have there : ({ pristine maxFrames report with origin := t.origin } : Machine).Obeys
          (.located [t]) :=
        obeys_new (fun _ _ => Registry.obeys_of_standard) ⟨t, List.mem_singleton_self t, rfl⟩
          fun _ _ => trivial
      obtain ⟨obeys, failed⟩ :=
        (there.load (t :: rest)).pass_located (List.Subset.refl [t]) passed
      exact ⟨.located obeys, failed⟩
  | finished =>
    cases passed
    exact ⟨.finished, fun _ failed => by cases failed⟩
  | located obeys =>
    obtain ⟨obeys', failed⟩ := (obeys.mono Rule.stricter_located).pass_located
      (List.subset_append_right seen m.upcoming) passed
    exact ⟨.located obeys', failed⟩

theorem Placed.moves (moves : m.Moves m') :
    (pristine maxFrames report).Placed (seen ++ m.upcoming) m' := by
  cases placed with
  | located obeys =>
    exact .located ((obeys.mono Rule.stricter_located).moves moves (Rule.admits_located _)
      fun t next => Rule.reads_located (List.mem_append_right seen next))
  | _ =>
    cases moves with
    | pass _ passed _ => exact (Placed.pass (by constructor) passed).1
    | answer asleep _ _ => cases asleep
    | resume asleep _ => cases asleep

theorem Placed.stems (holds : m.Holds (.error e)) : e.StemsFrom seen := by
  cases placed with
  | located obeys => exact obeys.holds holds
  | _ =>
    obtain ⟨w, member, _⟩ := holds
    cases member

end

/-! ### Runs -/

/-- The token that comes next is the first one of what is left. -/
theorem Rooted.upcoming_isPrefix {ahead : List Token} (rooted : m.Rooted)
    (stands : m.Stands ahead) : m.upcoming <+: ahead := by
  unfold upcoming
  split
  · next t rest _ head =>
    obtain ⟨below, frames⟩ := List.head?_eq_some_iff.1 head
    obtain rfl := rooted.bottom [] (t :: rest) below frames
    cases stands with
    | on last =>
      rw [frames] at last
      cases last
      exact List.prefix_append [t] rest
    | ended empty _ => cases frames.symm.trans empty
  · exact List.nil_prefix

theorem Executes.placed {tokens : List Token}
    (executes : ((pristine maxFrames report).load tokens).Executes seen m) :
    (pristine maxFrames report).Placed seen m := by
  induction executes with
  | start => exact .untouched tokens
  | moves _ moves ih => exact ih.moves moves

theorem Placed.ends (placed : (pristine maxFrames report).Placed seen m) {o : Outcome}
    (ends : m.Ends o m') (stops : o = .failed e ∨ m'.Holds (.error e)) :
    e.StemsFrom (seen ++ m.upcoming) := by
  cases ends with
  | @intro s _ _ _ passed said =>
    obtain ⟨placed', failed⟩ := placed.pass passed
    rcases stops with rfl | holds
    · cases s with
      | failed e' =>
        cases said
        exact failed e rfl
      | _ => cases said
    · exact placed'.stems holds

end Machine

/-- At every point of a run a part of the program has been run and the rest of it is the frame at
the bottom. Every error that is anywhere in the machine, on the stack, in a container or in a scope,
has the place of a token that was run. So has an error that the run ends with, where the token that
comes up may be the one, and every error that is left then. -/
theorem errors_stem_from_tokens (tokens : List Token) (maxFrames : Nat) (report : Option Report) :
    (∀ m, ((Machine.pristine maxFrames report).load tokens).Reaches m →
      ∃ seen ahead, tokens = seen ++ ahead ∧ m.Stands ahead ∧
        (∀ e, m.Holds (.error e) → e.StemsFrom seen) ∧ m.upcoming <+: ahead ∧
        ∀ o m', m.Ends o m' → ∀ e, o = .failed e ∨ m'.Holds (.error e) →
          e.StemsFrom (seen ++ m.upcoming)) ∧
      ∀ limit o r, (Run.start (.pristine maxFrames report) tokens).finish .unlimited limit =
        (some o, r) → ∀ e, o = .failed e ∨ r.machine.Holds (.error e) → e.StemsFrom tokens := by
  have idle := Machine.idle_pristine maxFrames report
  have points (m : Machine)
      (reaches : ((Machine.pristine maxFrames report).load tokens).Reaches m) :
      ∃ seen ahead, tokens = seen ++ ahead ∧ m.Stands ahead ∧ m.upcoming <+: ahead ∧
        (Machine.pristine maxFrames report).Placed seen m := by
    obtain ⟨seen, executes⟩ := Machine.Reaches.executes reaches
    obtain ⟨ahead, same, reads⟩ :=
      executes.reads idle (Machine.obeys_pristine maxFrames report)
    obtain ⟨_, rooted⟩ := Machine.Reaches.sound idle reaches
    exact ⟨seen, ahead, same, reads.stands, rooted.upcoming_isPrefix reads.stands, executes.placed⟩
  constructor
  · intro m reaches
    obtain ⟨seen, ahead, same, stands, next, placed⟩ := points m reaches
    exact ⟨seen, ahead, same, stands, fun e => placed.stems, next,
      fun o m' ends e => placed.ends ends⟩
  · intro limit o r finished e stops
    obtain ⟨k, settles⟩ := Run.settlesIn_of_finishFrom (idle.opened tokens) finished
    obtain ⟨m, reaches, ends⟩ := settles.exists_ends
    obtain ⟨seen, ahead, rfl, _, next, placed⟩ := points m reaches
    exact (placed.ends ends stops).mono ((List.prefix_append_right_inj seen).2 next)

/-- The program `{ x } try y`. -/
def failingTwice : List Token :=
  [⟨.opening .quote, ⟨1, 1⟩⟩, ⟨.name "x", ⟨1, 3⟩⟩, ⟨.closing .quote, ⟨1, 5⟩⟩,
    ⟨.name "try", ⟨1, 7⟩⟩, ⟨.name "y", ⟨1, 11⟩⟩]

/-- The first name has been quoted, and its error is found where it stands; the other one ends the
run. -/
theorem errors_stem_from_tokens_twice :
    ∃ m x y, ((Machine.pristine 8 none).load failingTwice).Reaches m ∧
      m.Holds (.error x) ∧ x.origin = some ⟨1, 3⟩ ∧ x.StemsFrom (failingTwice.take 4) ∧
      ∃ limit r, (Run.start (.pristine 8 none) failingTwice).finish .unlimited limit =
        (some (.failed y), r) ∧ y.origin = some ⟨1, 11⟩ ∧ y.StemsFrom failingTwice := by
  obtain ⟨points, outcome⟩ := errors_stem_from_tokens failingTwice 8 none
  let start := (Machine.pristine 8 none).load failingTwice
  let having (operands : List Value) (origin : Origin) (checkpoints : Nat) : Machine :=
    { Machine.pristine 8 none with
      operands := ⟨.ofList operands, []⟩, nextId := 1, origin, checkpoints }
  let quoted := (having [.quote 0 [.ref "x" ⟨1, 3⟩]] ⟨1, 5⟩ 3).load (failingTwice.drop 3)
  let tried : Machine := { having [] ⟨1, 7⟩ 4 with
    frames := .ofList [.body [.ref "x" ⟨1, 3⟩], .attempt 0, .program (failingTwice.drop 4)] }
  let x : LocatedError := ⟨.unknownReference "x", some ⟨1, 3⟩⟩
  let y : LocatedError := ⟨.unknownReference "y", some ⟨1, 11⟩⟩
  let caught := (having [.error x] ⟨1, 3⟩ 5).load (failingTwice.drop 4)
  have opened : start.Reaches quoted :=
    .tail (.tail (.single (.pass nofun rfl rfl)) (.pass nofun rfl rfl)) (.pass nofun rfl rfl)
  have attempts : quoted.Moves tried := by
    refine .pass (s := some .checkpoint) nofun ?_ rfl
    have ran : Exec.token ⟨.name "try", ⟨1, 7⟩⟩ (quoted.load (failingTwice.drop 4)) =
        .ok () { tried with checkpoints := 3 } :=
      (Exec.token_of_builtin rfl rfl rfl).trans (Exec.invokeOperation_attempt rfl (by decide))
    exact congrArg Machine.afterAdvance (Machine.advance_of_token ran)
  have reaches : start.Reaches caught := (opened.tail attempts).tail (.pass nofun rfl rfl)
  have holds : caught.Holds (.error x) := ⟨_, List.mem_cons_self, .whole⟩
  have fails : caught.SettlesIn 0 (.failed y) _ := .last ⟨nofun, rfl, rfl⟩
  obtain ⟨k, settles⟩ := fails.before reaches
  have idle := Machine.idle_pristine 8 none
  obtain ⟨limit, r, finished, _⟩ := Run.finishFrom_of_settlesIn 0 (idle.opened _) settles
  refine ⟨caught, x, y, reaches, holds, rfl, ?_, limit, r, finished, rfl,
    outcome limit _ r finished y (.inl rfl)⟩
  obtain ⟨seen, ahead, same, stands, stems, _⟩ := points _ reaches
  cases stands with
  | ended empty _ => cases empty
  | on last =>
    cases last
    have run : failingTwice.take 4 = seen := List.append_cancel_right same
    rw [run]
    exact stems x holds

end Catena
