import Catena.Proofs.Composition
import Catena.Proofs.Tenure

set_option autoImplicit false

/-!
Above another frame. What runs above a frame that waits cannot tell which frame that is, as long as
it does not take it away: with any other such frame in its place the same happens, moment by moment.
-/

namespace Catena

/-! ### Signals that go past a frame -/

/-- A break that comes to a frame that waits does not fail there. -/
theorem Frame.loopEdge?_of_waits {f : Frame} (waits : f.waits = true) :
    f.loopEdge? ≠ some false := by
  cases f with
  | program _ | body _ | call _ _ => cases waits
  | _ => simp [loopEdge?]

theorem Frame.callFloor?_of_waits {f : Frame} (waits : f.waits = true) : f.callFloor? = none := by
  cases f with
  | call _ _ => cases waits
  | _ => rfl

section

variable {m : Machine} {own below : List Frame} {f : Frame}

section

variable (frames : m.frames.toList = own ++ f :: below)
include frames

/-- An error that goes past all frames above one takes it away. -/
theorem Machine.raiseError_past (passed : ∀ g ∈ own, g.attemptHeight? = none) (e : LocatedError) :
    (m.raiseError e).2.frames.toList <:+ below := by
  rcases m.frames_raiseError e with ⟨_, after⟩ | ⟨above, g, lower, frames', _, found, after⟩
  · exact after ▸ List.nil_suffix
  · rw [after]
    rcases suffix_of_split (frames.symm.trans frames') passed found with ⟨_, same⟩ | beneath
    · exact same ▸ List.suffix_refl _
    · exact (List.suffix_cons g _).trans beneath

/-- A tail call that goes past all frames above one that waits takes it away, unless there is no
closure at all. -/
theorem Exec.replaceCall_past_waiting (passed : ∀ g ∈ own, g.callFloor? = none)
    (waits : f.waits = true) (target : Closure Value) :
    ((∀ g ∈ below, g.callFloor? = none) ∧
      replaceCall target m = .error (.error .tailCallOutsideFunction) m) ∨
      Remnant below (left (replaceCall target m)).frames.toList := by
  rcases replaceCall_cases m target with
    ⟨free, failed⟩ | ⟨above, d, floor, lower, frames', _, replaced⟩
  · rw [frames] at free
    exact .inl ⟨fun g member => free g (by simp [member]), failed⟩
  · rcases suffix_of_split (frames.symm.trans frames') passed (by simp [Frame.callFloor?]) with
      ⟨rfl, _⟩ | beneath
    · cases waits
    · rcases replaced with ⟨_, _, ran, after⟩ | ⟨_, _, ran, after, _⟩ <;> rw [ran]
      · exact .inr (after ▸ .cut beneath)
      · exact .inr (after ▸ .replaced beneath)

end

end

/-! ### Mirrored moments -/

open Translation

namespace Moment

/-- The same moment, with the frames `B` in the place of `A` at the bottom. -/
inductive Mirrored (A B : List Frame) : Moment → Moment → Prop
  | running {own : List Frame} {m n : Machine} : verbatim.Mirrors A B own m n →
      Mirrored A B (.running m) (.running n)
  | thrown {own : List Frame} {m n : Machine} (e : LocatedError) : verbatim.Mirrors A B own m n →
      Mirrored A B (.thrown e m) (.thrown e n)

section

variable {A B own : List Frame} {m n : Machine}

theorem mirrored_signalled (mirrors : verbatim.Mirrors A B own m n) (signal : Signal) :
    Mirrored A B (.ofAct (m.signalled signal)) (.ofAct (n.signalled (verbatim.signal signal))) := by
  cases signal with
  | error e =>
    have same : n.locate e = m.locate e := mirrors.locate e
    simp only [Translation.signal, Machine.signalled, same]
    exact .thrown _ mirrors
  | «break» => exact .running (Mirrors.checkpoint { mirrors with control := rfl })
  | tailCall c => exact .running (Mirrors.checkpoint { mirrors with control := rfl })
  | await a => exact .running (Mirrors.checkpoint { mirrors with control := rfl, pending := rfl })

theorem mirrored_actAfterSignal {x y : EStateM.Result Signal Machine Unit}
    (ends : Rendered verbatim A B id x y) :
    Mirrored A B (.ofAct (Machine.actAfterSignal x)) (.ofAct (Machine.actAfterSignal y)) := by
  cases ends with
  | ok mirrors => exact .running mirrors
  | error mirrors => exact mirrored_signalled mirrors _

theorem mirrored_actAfterAdvance {x y : EStateM.Result Signal Machine Tick}
    (ends : Rendered verbatim A B id x y) :
    Mirrored A B (.ofAct (Machine.actAfterAdvance x)) (.ofAct (Machine.actAfterAdvance y)) := by
  cases ends with
  | error mirrors => exact mirrored_signalled mirrors _
  | @ok _ tick _ _ mirrors =>
    cases tick with
    | internal => exact .running mirrors
    | checkpoint => exact .running mirrors.checkpoint

theorem mirrored_invoking (mirrors : verbatim.Mirrors A B own m n) (v : Value) :
    Mirrored A B (.invoking v m) (.invoking v n) := by
  have ends := (Follows.invoke v own m n mirrors).rendered rfl
  rw [value_verbatim] at ends
  exact mirrored_actAfterSignal ends

end

section

variable {f g : Frame} {below own : List Frame} {m n : Machine}

/-- What has only frames below a frame left has lost it. -/
theorem not_kept {frames : List Frame} (shorter : frames <:+ below) : ¬ f :: below <:+ frames :=
  fun kept => absurd (Nat.le_trans kept.length_le shorter.length_le) (Nat.not_succ_le_self _)

section

variable (mirrors : verbatim.Mirrors (f :: below) (g :: below) own m n)
include mirrors

theorem mirrored_handed {e : LocatedError}
    (kept : f :: below <:+ (m.raiseError e).2.frames.toList) :
    Mirrored (f :: below) (g :: below) (.running (m.raiseError e).2)
      (.running (n.raiseError e).2) := by
  have both := mirrors.raiseError e
  generalize ran : Machine.ending (m.raiseError e) = z at both
  generalize ran' : Machine.ending (n.raiseError e) = z' at both
  have left : (m.raiseError e).2 = z.2 := congrArg Prod.snd ran
  have right : (n.raiseError e).2 = z'.2 := congrArg Prod.snd ran'
  rw [left] at kept ⊢
  rw [right]
  cases both with
  | both mirrors => exact .running mirrors
  | escapes mirrors passed =>
    exact absurd kept (not_kept (Machine.raiseError_past mirrors.frames passed _))

theorem mirrored_break (waits : f.waits = true)
    (kept : f :: below <:+ (Exec.left (Exec.leaveLoop m)).frames.toList) :
    Rendered verbatim (f :: below) (g :: below) id (Exec.leaveLoop m) (Exec.leaveLoop n) :=
  mirrors.leaveLoop (.inr fun passed =>
    not_kept (Exec.leaveLoop_past mirrors.frames passed (Frame.loopEdge?_of_waits waits)) kept)

theorem mirrored_tailCall (waits : f.waits = true) (waits' : g.waits = true)
    (target : Closure Value)
    (kept : f :: below <:+ (Exec.left (Exec.replaceCall target m)).frames.toList) :
    Rendered verbatim (f :: below) (g :: below) id (Exec.replaceCall target m)
      (Exec.replaceCall target n) := by
  by_cases passed : ∀ h ∈ own, h.callFloor? = none
  · rcases Exec.replaceCall_past_waiting mirrors.frames passed waits target with
      ⟨free, failed⟩ | left
    · have free' : ∀ h ∈ n.frames.toList, h.callFloor? = none := by
        rw [mirrors.frames', frame_verbatim, List.map_id']
        exact List.forall_mem_append.2
          ⟨passed, List.forall_mem_cons.2 ⟨Frame.callFloor?_of_waits waits', free⟩⟩
      rw [failed, Exec.replaceCall_of_passed free']
      exact .error (s := .error _) mirrors
    · exact absurd kept (left.not_suffix waits)
  · have ends := mirrors.replaceCall target (.inr passed)
    rwa [closure_verbatim] at ends

end

/-- One moment above a frame that waits, and the same moment above another one. -/
theorem Mirrored.next {x y x' : Moment} (mirrored : Mirrored (f :: below) (g :: below) x x')
    (waits : f.waits = true) (waits' : g.waits = true) (next : x.Next y)
    (busy : ¬ x.Rests (f :: below)) (kept : f :: below <:+ y.machine.frames.toList) :
    ∃ y', x'.Next y' ∧ Mirrored (f :: below) (g :: below) y y' := by
  cases mirrored with
  | thrown e mirrors =>
    cases next with
    | handed => exact ⟨_, .handed _ _, mirrored_handed mirrors kept⟩
  | @running own m n mirrors =>
    have control := mirrors.control
    rw [control_verbatim] at control
    cases next with
    | answered reply suspended =>
      have answered := mirrors.answer reply
      rw [value_verbatim, Reply.map_id] at answered
      exact ⟨_, .answered reply (control.trans suspended), .running answered⟩
    | act =>
      refine ⟨_, .act n, ?_⟩
      cases left : m.control with
      | none =>
        rw [left] at control
        cases own with
        | nil => exact absurd ⟨left, mirrors.frames⟩ busy
        | cons h own =>
          obtain ⟨lower, lower', top, top', ends⟩ := mirrors.advance
          rw [Machine.act_of_top left top, Machine.act_of_top control top']
          exact mirrored_actAfterAdvance (ends.rendered rfl)
      | suspend =>
        rw [left] at control
        simp only [Machine.act, left, control]
        exact .running mirrors
      | throw e =>
        rw [left] at control
        simp only [Machine.act, left, control]
        exact .thrown e mirrors.calm
      | «break» =>
        rw [left] at control
        simp only [Machine.act, left, control] at kept ⊢
        rw [frames_ofAct_actAfterSignal] at kept
        exact mirrored_actAfterSignal (mirrored_break mirrors.calm waits kept)
      | tailCall target =>
        rw [left] at control
        simp only [Machine.act, left, control] at kept ⊢
        rw [frames_ofAct_actAfterSignal] at kept
        exact mirrored_actAfterSignal (mirrored_tailCall mirrors.calm waits waits' target kept)

theorem Mirrored.rests_iff {x x' : Moment} (mirrored : Mirrored (f :: below) (g :: below) x x') :
    x'.Rests (g :: below) ↔ x.Rests (f :: below) := by
  cases mirrored with
  | thrown => exact Iff.rfl
  | running mirrors =>
    have control := mirrors.control
    rw [control_verbatim] at control
    simp [Rests, mirrors.frames, mirrors.frames', control]

theorem Mirrored.upheld {x x' : Moment} (mirrored : Mirrored (f :: below) (g :: below) x x') :
    g :: below <:+ x'.machine.frames.toList := by
  cases mirrored with
  | running mirrors | thrown _ mirrors =>
    exact ⟨_, mirrors.frames'.symm⟩

/-- What happens above a frame that waits happens above any other one. -/
theorem Mirrored.atop {x y x' : Moment} (mirrored : Mirrored (f :: below) (g :: below) x x')
    (waits : f.waits = true) (waits' : g.waits = true) (atop : Atop (f :: below) x y) :
    ∃ y', Atop (g :: below) x' y' ∧ Mirrored (f :: below) (g :: below) y y' := by
  induction atop with
  | refl => exact ⟨x', .refl, mirrored⟩
  | tail _ step ih =>
    obtain ⟨next, busy, _, kept⟩ := step
    obtain ⟨z', atop', before⟩ := ih
    obtain ⟨y', next', after⟩ := before.next waits waits' next busy kept
    exact ⟨y', .tail atop' ⟨next', mt before.rests_iff.1 busy, before.upheld, after.upheld⟩, after⟩

/-- What comes to its end above a frame that waits comes to the same end above any other one. -/
theorem Mirrored.atop_running {x x' : Moment} {m : Machine}
    (mirrored : Mirrored (f :: below) (g :: below) x x') (waits : f.waits = true)
    (waits' : g.waits = true) (atop : Atop (f :: below) x (.running m))
    (rests : Rests (f :: below) (.running m)) :
    Atop (g :: below) x' (.running (m.on (g :: below))) := by
  obtain ⟨y', atop', after⟩ := mirrored.atop waits waits' atop
  cases after with
  | running mirrors =>
    obtain ⟨_, frames, rfl⟩ := mirrors_verbatim_iff.1 mirrors
    obtain rfl : _ = [] := List.append_left_eq_self.1 (frames.symm.trans rests.2)
    exact atop'

end

end Moment

end Catena
