import Catena.Proofs.Accessors
import Catena.Proofs.Tenure

set_option autoImplicit false

/-!
Updates of fields. An update runs code above a floor, where nothing but the old value of the field
can be seen. When the code comes to its end with one value above the floor, this is written to the
field just as the setter does it, with the same result or error; with any other number of values an
error is thrown. However the code is left, its floor goes with it, and of the other floors only
those whose frames are left as well.
-/

namespace Catena

theorem Operands.eq_of_toList {s t : Operands} (values : s.toList = t.toList)
    (floors : s.floors = t.floors) : s = t := by
  obtain ⟨items, _⟩ := s
  obtain ⟨items', _⟩ := t
  have same : items = items' := Stack.ext (List.reverse_injective values)
  subst same
  subst floors
  rfl

theorem Machine.toList_given (m : Machine) (args : List Value) :
    (m.given args).operands.toList = m.operands.toList ++ args := by
  induction args using List.reverseRecOn with
  | nil => exact (List.append_nil _).symm
  | append_singleton args v ih =>
    rw [given_append, ← List.append_assoc, ← ih]
    exact List.reverse_cons

theorem Machine.floors_given (m : Machine) (args : List Value) :
    (m.given args).operands.floors = m.operands.floors := by
  induction args using List.reverseRecOn with
  | nil => rfl
  | append_singleton args v ih =>
    rw [given_append]
    exact ih

/-- Operands that lie above others have been given to the machine with those. -/
theorem Machine.having_given {m : Machine} {s t : Operands} {args : List Value}
    (values : t.toList = s.toList ++ args) (floors : t.floors = s.floors) (frames : List Frame) :
    (m.having s frames).given args = m.having t frames := by
  have operands : ((m.having s frames).given args).operands = t := by
    refine Operands.eq_of_toList ?_ ?_
    · rw [toList_given, values]
      rfl
    · rw [floors_given, floors]
      rfl
  have same : (m.having s frames).given args =
      m.having ((m.having s frames).given args).operands frames := rfl
  rw [same, operands]

theorem Machine.having_self (m : Machine) : m.having m.operands m.frames.toList = m := by
  have stack : Stack.ofList m.frames.toList = m.frames := Stack.ext rfl
  rw [having, stack]

namespace Struct

variable (st : Struct) (i : st.Place) (types : Scope)

def updaterName : String := st.getterName i ++ "-do"

/-- The operation that computes a field anew. -/
def updater : DataOp Value := ⟨st.updaterName i, .update (st.field i) types⟩

/-- The operation that writes a field. -/
def setter : DataOp Value := ⟨st.setterName i, .set (st.field i) types⟩

/-- The frame of an update, which is to write a field of an instance with these values. -/
def updating (values : List Value) (floor : Nat) : Frame :=
  .update (.sym instanceTag :: .sym st.name :: values) (st.field i) types floor

end Struct

theorem Declaration.update_mem {decl : Declaration} {m : Machine} {st : Struct}
    (member : st ∈ decl.structs) (i : st.Place) :
    st.updater i (decl.typesAt m) ∈ decl.operationsAt m := by
  apply mem_operationsAt_of_mem_accessors member i
  exact List.mem_cons_of_mem _ List.mem_cons_self

/-! ### Beginning and end of an update -/

/-- An update has put up its frame and set its floor, with the old value above it. -/
def Machine.under (m : Machine) (f : Frame) (old : Value) : Machine :=
  { m with frames := m.frames.push f, operands := m.operands.forbid.push old }

namespace Exec

variable {st : Struct} {i : st.Place} {types : Scope} {values : List Value} {m : Machine}
  (grounded : m.operands.floor ≤ m.operands.count) {old : Value} (found : values[i.val]? = some old)
  (id : Nat)
include grounded found

/-- An update hands over to the code, unless there is no room for its frame. -/
theorem operation_updater {q : Value} (code : q.isCode = true) :
    operation (.data (st.updater i types)) (m.given [st.instanceOf id values, q]) =
      if m.maxFrames ≤ m.frames.size then .error (.error .depthExceeded) m
      else .ok (some q) (m.under (st.updating i types values m.operands.count) old) := by
  have top := pop_given grounded [st.instanceOf id values] q
  rw [List.singleton_append] at top
  have popped := popInstance_given grounded (st.updaterName i) found id
  have callable : popCallable (st.updaterName i) (m.given [st.instanceOf id values, q]) =
      .ok q (m.given [st.instanceOf id values]) := by
    simp only [popCallable, popAs, Bind.bind, EStateM.bind, top, Value.isCallable_of_isCode code]
    rfl
  simp only [operation, dataOp, Struct.updater, beginUpdate, Bind.bind, EStateM.bind, callable,
    popped, get_apply, pushFrame]
  by_cases full : m.maxFrames ≤ m.frames.size
  · simp only [if_pos full]
  · simp only [if_neg full]
    rfl

/-- The setter writes the value on top. -/
theorem invokeOperation_setter (v : Value) :
    invokeOperation (.data (st.setter i types)) (m.given [st.instanceOf id values, v]) =
      writeField (.sym instanceTag :: .sym st.name :: values) (st.field i) types v m := by
  have top := pop_given grounded [st.instanceOf id values] v
  rw [List.singleton_append] at top
  have popped := popInstance_given grounded (st.setterName i) found id
  rw [invokeOperation_of_plain rfl]
  simp only [Struct.setter, Bind.bind, EStateM.bind, top, popped]

end Exec

namespace Machine

/-- The machine `m` lies under an update that has come to its end at `now`: it is left when the
frame and the floor of the update are taken away, and with them the operands `R`. -/
structure Uncovers (st : Struct) (i : st.Place) (types : Scope) (values : List Value) (m : Machine)
    (R : List Value) (now : Machine) : Prop where
  rests : Moment.Rests (st.updating i types values m.operands.count :: m.frames.toList)
    (.running now)
  under : now.having (now.operands.allow m.operands.count) m.frames.toList = m.given R

variable {st : Struct} {i : st.Place} {types : Scope} {values R : List Value} {m now : Machine}

theorem Uncovers.act (uncovers : Uncovers st i types values m R now) :
    now.act = actAfterSignal ((do
      if R.length = 1 then
        Exec.writeField (.sym instanceTag :: .sym st.name :: values) (st.field i) types
          (← Exec.pop)
      else Exec.fail (.updateCount st.name (st.param i).name R.length) : Exec Unit)
        (m.given R)) := by
  have count : now.operands.count - m.operands.count = R.length := by
    have same : now.operands.count = (m.given R).operands.count :=
      congrArg (fun m => m.operands.count) uncovers.under
    rw [same, count_given, Nat.add_sub_cancel_left]
  rw [act_of_rests uncovers.rests, Struct.updating, Exec.advance, actAfterAdvance_thenInternal,
    ← uncovers.under, ← count]
  rfl

/-- One value is written. -/
theorem Uncovers.act_of_one {v : Value} (uncovers : Uncovers st i types values m [v] now)
    (grounded : m.operands.floor ≤ m.operands.count) :
    now.act = actAfterSignal
      (Exec.writeField (.sym instanceTag :: .sym st.name :: values) (st.field i) types v m) := by
  have top := Exec.pop_given grounded [] v
  rw [List.nil_append] at top
  rw [uncovers.act, List.length_singleton, if_pos rfl]
  simp only [Bind.bind, EStateM.bind, top]
  rfl

theorem Uncovers.act_of_other (uncovers : Uncovers st i types values m R now)
    (other : R.length ≠ 1) :
    now.act = .throws (m.locate (.updateCount st.name (st.param i).name R.length)) (m.given R) := by
  rw [uncovers.act, if_neg other]
  rfl

/-- Of the frames of `s` the topmost ones, `gone`, are left at `m`, and with them their floors; all
other floors are kept. Of the frames that remain, a tail call may have put another closure into the
topmost one. -/
structure Sheds (gone : List Frame) (s m : Machine) : Prop where
  frames : ∃ lower, s.frames.toList = gone ++ lower ∧ (m.frames.toList = lower ∨
    ∃ c d floor rest, lower = .call d floor :: rest ∧
      m.frames.toList = .body c.body :: .call c floor :: rest)
  floors : s.operands.floors = floorsOf gone ++ m.operands.floors

/-- What is left of the frames has its floors. -/
theorem Sheds.of_remnant {s m : Machine} (floors : s.operands.floors = floorsOf s.frames.toList)
    (aligned : Aligned m) (remnant : Remnant s.frames.toList m.frames.toList) :
    ∃ gone, Sheds gone s m := by
  have held := aligned.floors
  generalize frames : m.frames.toList = left at remnant held
  cases remnant with
  | cut shorter =>
    obtain ⟨gone, split⟩ := shorter
    refine ⟨gone, ⟨_, split.symm, .inl frames⟩, ?_⟩
    rw [floors, held, ← split, floorsOf_append]
  | @replaced c d floor lower shorter =>
    obtain ⟨gone, split⟩ := shorter
    refine ⟨gone, ⟨_, split.symm, .inr ⟨c, d, floor, lower, rfl, frames⟩⟩, ?_⟩
    rw [floors, held, ← split, floorsOf_append]
    rfl

end Machine

/-! ### The code of an update -/

/-- What an action has left shows in the moment after it. -/
theorem Moment.machine_ofAct (x : Exec Unit) (tick : Tick) (m : Machine) :
    let z := ofAct (Machine.actAfterAdvance ((do x; pure tick : Exec Tick) m))
    z.machine.frames = (Exec.left (x m)).frames ∧
      z.machine.operands = (Exec.left (x m)).operands := by
  simp only [Bind.bind, EStateM.bind]
  cases x m with
  | ok a m' => cases tick <;> exact ⟨rfl, rfl⟩
  | error signal m' => cases signal <;> exact ⟨rfl, rfl⟩

theorem Moment.Sound.aligned {x : Moment} (sound : x.Sound) : Aligned x.machine := by
  cases x with
  | running m => exact sound.1
  | thrown e m => exact Running.aligned sound

/-- What happens above a frame keeps it. -/
theorem Moment.Atop.keeps {f : Frame} {below : List Frame} {x y : Moment}
    (atop : Atop (f :: below) x y) : Keeps below.length x y := by
  induction atop with
  | refl => exact .refl
  | tail _ step ih =>
    obtain ⟨next, _, ⟨own, before⟩, own', after⟩ := step
    exact .tail ih ⟨next, f, f, Machine.frameAt?_of_append before.symm,
      Machine.frameAt?_of_append after.symm, .same f⟩

/-- Invoked code has at most taken operands. -/
theorem Exec.prefix_of_invoke {v : Value} {m m' : Machine} (code : v.isCode = true)
    (ran : invoke v m = .ok () m') : m'.operands.toList <+: m.operands.toList := by
  rw [invoke.eq_def] at ran
  cases v with
  | quote id body =>
    obtain rfl := pushFrame_eq_ok ran
    exact List.prefix_refl _
  | closure c =>
    obtain ⟨args, _, operands⟩ := arguments_of_enter ran
    exact ⟨args, operands.symm⟩
  | _ => cases code

theorem Exec.errs_invoke_code {v : Value} (code : v.isCode = true) : Errs (invoke v) := by
  intro m signal m' failed
  rw [invoke.eq_def] at failed
  cases v with
  | quote id body => exact ⟨_, (pushFrame_eq_error failed).1⟩
  | closure c => exact (enter_eq_error failed).2.2.2
  | _ => cases code

section

variable {m r now : Machine} {f : Frame} {old q : Value} {tick : Tick} {x y : Moment}

variable (begun : m.act =
    Machine.actAfterAdvance ((do Exec.invoke q; pure tick : Exec Tick) (r.under f old)))
  (code : q.isCode = true)
include begun code

namespace Machine

/-- There is nothing but code above the frame when the code has been begun. -/
theorem frames_begun :
    ∃ new, (Moment.ofAct m.act).machine.frames.toList = new ++ f :: r.frames.toList ∧
      (Moment.ofAct m.act).machine.operands.floors =
        floorsOf new ++ r.operands.count :: r.operands.floors ∧
      ∀ g ∈ new, g.waits = false := by
  obtain ⟨new, frames, floors, own⟩ := Exec.adds_code code (r.under f old)
  obtain ⟨frames', operands'⟩ := Moment.machine_ofAct (Exec.invoke q) tick (r.under f old)
  rw [begun, frames', operands']
  exact ⟨new, frames, floors, own⟩

/-- If the code has been begun, it has at most taken the old value. -/
theorem prefix_of_begun {m₁ : Machine} (running : Moment.ofAct m.act = .running m₁) :
    m₁.operands.toList <+: r.operands.toList ++ [old] := by
  obtain ⟨_, operands⟩ := Moment.machine_ofAct (Exec.invoke q) tick (r.under f old)
  rw [begun] at running
  rw [running] at operands
  have operands : m₁.operands = _ := operands
  have given : (r.under f old).operands.toList = r.operands.toList ++ [old] := List.reverse_cons
  cases ran : Exec.invoke q (r.under f old) with
  | ok _ m₂ =>
    rw [operands, ran, ← given]
    exact Exec.prefix_of_invoke code ran
  | error signal m₂ =>
    obtain ⟨e, rfl⟩ := Exec.errs_invoke_code code _ _ _ ran
    simp only [Bind.bind, EStateM.bind, ran] at running
    cases running

variable {st : Struct} {i : st.Place} {types : Scope} {values : List Value}
  (frame : f = st.updating i types values r.operands.count)
  (sound : (Moment.ofAct m.act).Sound)
include frame sound

/-- Below the update, the floors are those of the frames. -/
theorem floors_under : r.operands.floors = floorsOf r.frames.toList := by
  obtain ⟨new, frames, floors, _⟩ := frames_begun begun code
  have aligned := (Moment.Sound.aligned sound).floors
  rw [frames, floors, floorsOf_append, frame] at aligned
  exact (List.cons.inj (List.append_cancel_left aligned)).2

/-- As long as the code runs, the operands under it are what they were. -/
theorem kept_under (atop : Moment.Atop (f :: r.frames.toList) (.ofAct m.act) (.running now)) :
    now.operands.toList.take r.operands.count = r.operands.toList := by
  obtain ⟨new, frames, _, own⟩ := frames_begun begun code
  have taken {m₁ : Machine} (running : Moment.ofAct m.act = .running m₁) :=
    prefix_of_begun begun code running
  have aligned := Moment.Sound.aligned sound
  generalize Moment.ofAct m.act = start at atop frames taken aligned
  cases start with
  | thrown e m₁ =>
    -- The error would have to be caught above the update, where there is only code.
    rcases atop.cases_head with same | ⟨z, ⟨next, _, _, kept⟩, _⟩
    · cases same
    · have passed : ∀ g ∈ new ++ [f], g.attemptHeight? = none :=
        List.forall_mem_append.2
          ⟨fun g member => Frame.attemptHeight?_of_not_waits (own g member),
            List.forall_mem_singleton.2 (by rw [frame]; rfl)⟩
      rw [List.append_cons] at frames
      cases next with
      | handed => exact absurd kept (not_kept_raiseError frames passed _ _)
  | running m₁ =>
    have aligned : Aligned m₁ := aligned
    have holds : f.floor? = some r.operands.count := by rw [frame]; rfl
    obtain ⟨_, _, _, _, _, same⟩ := aligned.kept_under frames holds atop.keeps
    obtain ⟨_, _, _, _, reach, _⟩ := aligned.kept_under frames holds .refl
    refine same.trans ?_
    obtain ⟨rest, split⟩ := taken rfl
    have lower := congrArg (List.take r.operands.count) split
    rwa [List.take_append_of_le_length (reach.trans_eq (Operands.length_toList _).symm),
      List.take_left' (Operands.length_toList _)] at lower

/-- When the code has come to its end, the machine under it is uncovered with what the code has
left. -/
theorem exists_uncovers
    (atop : Moment.Atop (f :: r.frames.toList) (.ofAct m.act) (.running now))
    (rests : Moment.Rests (f :: r.frames.toList) (.running now)) :
    ∃ R, now.operands.toList = r.operands.toList ++ R ∧
      Uncovers st i types values (now.having r.operands r.frames.toList) R now := by
  have same := floors_under begun code frame sound
  have aligned : Aligned now := Moment.Sound.aligned (atop.reaches.sound sound)
  have split := List.take_append_drop r.operands.count now.operands.toList
  rw [kept_under begun code frame sound atop] at split
  refine ⟨_, split.symm, by rwa [frame] at rests, ?_⟩
  refine (having_given (t := now.operands.allow r.operands.count) split.symm ?_ _).symm
  rw [Operands.allow, aligned.floors, rests.2, frame, same]
  exact List.erase_cons_head ..

/-- However the code is left, its floor goes, and with it only the floors of frames that are left
as well. -/
theorem exists_sheds (atop : Moment.Atop (f :: r.frames.toList) (.ofAct m.act) x)
    (next : x.Next y) (left : ¬ f :: r.frames.toList <:+ y.machine.frames.toList) :
    ∃ gone, Sheds gone r y.machine ∧ (x.Rests (f :: r.frames.toList) → gone = []) := by
  have same := floors_under begun code frame sound
  have aligned : Aligned y.machine :=
    Moment.Sound.aligned (Moment.Reaches.sound (.tail atop.reaches next) sound)
  by_cases rests : x.Rests (f :: r.frames.toList)
  · cases x with
    | thrown e now => cases rests
    | running now =>
      cases next with
      | answered reply asleep => cases rests.1.symm.trans asleep
      | act now =>
        have frames : (Moment.ofAct now.act).machine.frames.toList = r.frames.toList := by
          have gone := Exec.leaveUpdate_gone (.sym instanceTag :: .sym st.name :: values)
            (st.field i) types r.operands.count (.ofList r.frames.toList) now
          rw [frame] at rests
          rw [act_of_rests rests, Struct.updating, Exec.advance, actAfterAdvance_thenInternal,
            Moment.frames_ofAct_actAfterSignal]
          generalize Exec.leaveUpdate _ _ _ _ _ now = z at gone ⊢
          cases z with
          | ok _ m' =>
            have left : m'.frames = .ofList r.frames.toList := gone
            exact (congrArg Stack.toList left :)
          | error signal m' => exact (congrArg Stack.toList gone.1 :)
        refine ⟨[], ⟨⟨_, rfl, .inl frames⟩, ?_⟩, fun _ => rfl⟩
        rw [aligned.floors, frames, same]
        rfl
  · obtain ⟨new, frames, _⟩ := frames_begun begun code
    have upheld := atop.suffix ⟨new, frames.symm⟩
    rcases next.held (by rw [frame]; rfl) upheld rests with kept | ⟨_, remnant⟩
    · exact absurd kept left
    · obtain ⟨gone, sheds⟩ := Sheds.of_remnant same aligned remnant
      exact ⟨gone, sheds, fun own => absurd own rests⟩

end Machine

end

/-- The update takes the instance and the code and hands over to the code, unless there is no room
for its frame. -/
theorem Machine.Performs.begins {m s : Machine} {st : Struct} {i : st.Place} {types : Scope}
    {X values : List Value} {id : Nat} {old q : Value}
    (performs : m.Performs (.data (st.updater i types)) s)
    (operands : s.operands.toList = X ++ [st.instanceOf id values, q])
    (grounded : (s.operands.spend 2).floor ≤ (s.operands.spend 2).count)
    (found : values[i.val]? = some old) (code : q.isCode = true) :
    (s.maxFrames ≤ s.frames.size ∧ m.act = .throws (s.locate .depthExceeded)
      (s.having (s.operands.spend 2) s.frames.toList)) ∨
    ∃ tick, m.act = actAfterAdvance ((do Exec.invoke q; pure tick : Exec Tick)
      ((s.having (s.operands.spend 2) s.frames.toList).under
        (st.updating i types values (s.operands.spend 2).count) old)) := by
  obtain ⟨tick, act⟩ := performs.act
  let r := s.having (s.operands.spend 2) s.frames.toList
  have same : r.given [st.instanceOf id values, q] = s := by
    have lower : (s.operands.spend 2).toList = X := Operands.toList_spend operands
    have whole := operands.trans (congrArg (· ++ _) lower.symm)
    exact (having_given whole rfl _).trans s.having_self
  have ran :
      Exec.operation (.data (st.updater i types)) (r.given [st.instanceOf id values, q]) = _ :=
    Exec.operation_updater grounded found id code
  rw [same] at ran
  by_cases full : r.maxFrames ≤ r.frames.size
  · rw [if_pos full] at ran
    refine .inl ⟨full.trans_eq s.frames.length_eq, ?_⟩
    rw [act]
    simp only [Bind.bind, EStateM.bind, Exec.invokeOperation_of_error ran]
    rfl
  · rw [if_neg full] at ran
    refine .inr ⟨tick, ?_⟩
    rw [act]
    simp only [Bind.bind, EStateM.bind, Exec.invokeOperation_of_some ran]
    rfl

/-- Take any field of a declared struct and any reachable machine that runs the update of the field
on an instance `p` and code. Unless there is no room for a frame, the code is invoked where only the
old value can be seen. If it comes to its end with one value above the rest, what happens next is
what the setter does with `p` and this value; with any other number of values an error is thrown and
nothing is pushed. However the code is left, of the floors that there were before the update those
are kept whose frames are. -/
theorem update_applies_then_sets {m₀ m₁ k m s : Machine} {decl : Declaration} {st : Struct}
    {i : st.Place} {X values : List Value} {id : Nat} {old q : Value} (idle : m₀.Idle)
    (loaded : m₀.Loaded m₁) (reaches : Moment.Reaches (.running m₁) (.running m))
    (member : st ∈ decl.structs) (performs : m.Performs (.data (st.updater i (decl.typesAt k))) s)
    (operands : s.operands.toList = X ++ [st.instanceOf id values, q])
    (accessible : 2 ≤ s.operands.accessible) (found : values[i.val]? = some old)
    (code : q.isCode = true) :
    st.updater i (decl.typesAt k) ∈ decl.operationsAt k ∧
    st.setter i (decl.typesAt k) ∈ decl.operationsAt k ∧
    ((s.maxFrames ≤ s.frames.size ∧ m.act = .throws (s.locate .depthExceeded)
        (s.having (s.operands.spend 2) s.frames.toList)) ∨
      ∃ b f tick, f = st.updating i (decl.typesAt k) values X.length ∧
        b.frames.toList = f :: s.frames.toList ∧ b.scopes = s.scopes ∧
        b.operands.toList = X ++ [old] ∧ b.operands.floors = X.length :: s.operands.floors ∧
        b.operands.accessible = 1 ∧
        m.act = Machine.actAfterAdvance ((do Exec.invoke q; pure tick : Exec Tick) b) ∧
        ∀ x, Moment.Atop (f :: s.frames.toList) (.ofAct m.act) x →
          (∀ now, x = .running now → x.Rests (f :: s.frames.toList) →
            ∃ R, now.operands.toList = X ++ R ∧
              (∀ v, R = [v] → now.act = Machine.actAfterSignal
                (Exec.invokeOperation (.data (st.setter i (decl.typesAt k)))
                  ((now.having (s.operands.spend 2) s.frames.toList).given
                    [st.instanceOf id values, v]))) ∧
              (R.length ≠ 1 → now.act = .throws
                (now.locate (.updateCount st.name (st.param i).name R.length))
                ((now.having (s.operands.spend 2) s.frames.toList).given R))) ∧
          ∀ y, x.Next y → ¬ f :: s.frames.toList <:+ y.machine.frames.toList →
            ∃ gone, Machine.Sheds gone s y.machine ∧
              (x.Rests (f :: s.frames.toList) → gone = [])) := by
  refine ⟨Declaration.update_mem member i, Declaration.set_mem member i, ?_⟩
  have sound : (Moment.ofAct m.act).Sound :=
    Moment.Reaches.sound (.tail reaches (.act m)) (loaded.sound idle)
  have lower : (s.operands.spend 2).toList = X := Operands.toList_spend operands
  have height : (s.operands.spend 2).count = X.length := by rw [← lower, Operands.length_toList]
  have grounded : (s.operands.spend 2).floor ≤ (s.operands.spend 2).count := by
    have count := congrArg List.length operands
    rw [Operands.length_toList, List.length_append, List.length_cons, List.length_singleton]
      at count
    rw [Operands.accessible] at accessible
    rw [height]
    change s.operands.floor ≤ X.length
    omega
  rcases performs.begins operands grounded found code with full | ⟨tick, begun⟩
  · exact .inl full
  let r := s.having (s.operands.spend 2) s.frames.toList
  let f := st.updating i (decl.typesAt k) values r.operands.count
  have frame : f = st.updating i (decl.typesAt k) values X.length :=
    congrArg (st.updating i (decl.typesAt k) values) height
  refine .inr ⟨r.under f old, f, tick, frame, rfl, rfl, ?_, ?_, ?_, begun, fun x atop => ⟨?_, ?_⟩⟩
  · exact List.reverse_cons.trans (congrArg (· ++ _) lower)
  · exact congrArg (· :: _) height
  · exact Nat.add_sub_cancel_left ..
  · rintro now rfl rests
    obtain ⟨R, split, uncovers⟩ := Machine.exists_uncovers begun code rfl sound atop rests
    refine ⟨R, split.trans (congrArg (· ++ _) lower), ?_, uncovers.act_of_other⟩
    rintro v rfl
    rw [uncovers.act_of_one grounded]
    exact congrArg _ (Exec.invokeOperation_setter
      (m := now.having r.operands r.frames.toList) grounded found id v).symm
  · intro y next left
    obtain ⟨gone, sheds, own⟩ := Machine.exists_sheds begun code rfl sound atop next left
    exact ⟨gone, ⟨sheds.frames, sheds.floors⟩, own⟩

/-- A closure that takes a value and returns another one. -/
def Closure.nine : Closure Value := ⟨2, none, [.int 9], some ⟨[⟨"v", none⟩], none⟩, .empty⟩

/-- The types that a declaration of `Shape` knows. -/
def Scope.ofShape : Scope := Declaration.shape.typesAt (.new .standard)

/-- The update of `x` in a `Point`. -/
def DataOp.updateX : DataOp Value := Struct.point.updater ⟨0, by decide⟩ .ofShape

/-- The point at `3` and `4`. -/
def Value.point : Value := Struct.point.instanceOf 1 [.int 3, .int 4]

/-- The frame of the update of its `x` above one operand. -/
def Frame.updateX : Frame := Struct.point.updating ⟨0, by decide⟩ .ofShape [.int 3, .int 4] 1

/-- A machine in the course of this update. -/
def Machine.improving (items : List Value) (floors : List Nat) (scopes : Scopes)
    (frames : List Frame) (checkpoints : Nat) : Machine :=
  { registry := .standard
    operands := ⟨.ofList (items ++ [.nil]), floors⟩
    scopes
    frames := .ofList frames
    nextId := 5
    checkpoints }

theorem update_applies_then_sets_point :
    ∃ now rest after : Machine,
      Moment.Atop [.updateX, .body []]
        (.ofAct ((Machine.improving [.closure .nine, .point] [] .empty [] 0).loadValue
          (.op (.data .updateX) .none)).act) (.running now) ∧
      now.operands.toList = [.nil, .int 9] ∧ rest.operands.toList = [.nil] ∧
      now.act = Machine.actAfterSignal
        (Exec.invokeOperation (.data (Struct.point.setter ⟨0, by decide⟩ .ofShape))
          (rest.given [.point, .int 9])) ∧
      now.act = .goes none after ∧
      after.operands.toList = [.nil, Struct.point.instanceOf 5 [.int 9, .int 4]] := by
  let m : Machine :=
    (Machine.improving [.closure .nine, .point] [] .empty [] 0).loadValue
      (.op (.data .updateX) .none)
  let scopes : Scopes := Scopes.enter .empty (Closure.nine.activation.insert "v" (.int 3))
  let call : Frame := .call .nine 1
  let s : Machine := .improving [.closure .nine, .point] [] .empty [.body []] 0
  let begun : Machine := .improving [] [1, 1] scopes [.body [.int 9], call, .updateX, .body []] 1
  let pushed : Machine := .improving [.int 9] [1, 1] scopes [.body [], call, .updateX, .body []] 2
  let through : Machine := .improving [.int 9] [1, 1] scopes [call, .updateX, .body []] 2
  let now : Machine := .improving [.int 9] [1] .empty [.updateX, .body []] 2
  have idle : (Machine.improving [.closure .nine, .point] [] .empty [] 0).Idle :=
    ⟨rfl, rfl, rfl, rfl, rfl, rfl⟩
  have member : Struct.point ∈ Declaration.shape.structs :=
    List.mem_cons_of_mem _ (List.mem_singleton_self _)
  have performs : m.Performs (.data .updateX) s := ⟨rfl, .checkpoint, rfl⟩
  have invoked : m.act = .goes (some .checkpoint) begun := by
    let shown : Machine := .improving [.int 3] [1] .empty [.updateX, .body []] 0
    have ran : Exec.operation (.data .updateX) s = .ok (some (.closure .nine)) shown := rfl
    have entered : Exec.invoke (.closure .nine) shown =
        .ok () { begun with checkpoints := 0 } := by
      rw [Exec.invoke]
      rfl
    change Machine.actAfterAdvance
      ((do Exec.invokeOperation (.data .updateX); pure .checkpoint : Exec Tick) s) = _
    simp only [Bind.bind, EStateM.bind, (Exec.invokeOperation_of_some ran).trans entered]
    rfl
  have atop : Moment.Atop [.updateX, .body []] (.ofAct m.act) (.running now) := by
    have busy {frames : List Frame} (more : frames.length ≠ 2) (items : List Value) (k : Nat) :
        ¬ Moment.Rests [.updateX, .body []] (.running (.improving items [1, 1] scopes frames k)) :=
      fun rests => more (congrArg List.length rests.2)
    rw [invoked]
    have first : Moment.Atop [.updateX, .body []] (.running begun) (.running pushed) :=
      .single ⟨.act begun, busy (by decide) [] 1, ⟨[_, _], rfl⟩, ⟨[_, _], rfl⟩⟩
    have second : Moment.Atop [.updateX, .body []] (.running begun) (.running through) :=
      first.tail ⟨.act pushed, busy (by decide) [.int 9] 2, ⟨[_, _], rfl⟩, ⟨[call], rfl⟩⟩
    exact second.tail ⟨.act through, busy (by decide) [.int 9] 2, ⟨[call], rfl⟩, ⟨[], rfl⟩⟩
  have operands : s.operands.toList = [.nil] ++ [.point, .closure .nine] := rfl
  obtain ⟨_, _, ⟨full, _⟩ | ⟨b, _, tick, rfl, _, _, _, _, _, _, ends⟩⟩ :=
    update_applies_then_sets idle (.value _) .refl member performs operands (by decide) rfl rfl
  · exact absurd full (by decide)
  · obtain ⟨R, split, sets, _⟩ := (ends _ atop).1 now rfl ⟨rfl, rfl⟩
    have split : [.nil] ++ [.int 9] = [.nil] ++ R := split
    have one : R = [.int 9] := (List.append_cancel_left split).symm
    exact ⟨now, _, _, atop, rfl, rfl, sets _ one, rfl, rfl⟩

end Catena
