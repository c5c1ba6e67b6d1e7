import Catena.Proofs.Collecting
import Catena.Proofs.Steady

set_option autoImplicit false

/-!
A machine that runs a program and one that runs the code which the program becomes when it is
collected. They stay abreast: what a token does at once, the element of the code made from it does
later. The quotations in the code have got their identities before anything runs, so these are kept
in reserve until the first machine comes to the quotations.
-/

namespace Catena

/-! ### Runs that end alike -/

/-- The places of errors are left out of account. -/
inductive Outcome.Alike : Outcome → Outcome → Prop
  | completed : Outcome.Alike .completed .completed
  | failed {e e' : LocatedError} : e'.error = e.error → Outcome.Alike (.failed e) (.failed e')

/-- Two runs have ended in the same way, up to the identities from `old` on. -/
structure EndedAlike (old : Nat) (x y : Outcome × Machine) : Prop where
  outcome : x.1.Alike y.1
  machines : ∃ q, OneToOne q ∧ (∀ i < old, q i i) ∧
    SameAll q x.2.operands.toList y.2.operands.toList ∧ x.2.scopes.active.Same q y.2.scopes.active

theorem Step.outcome?_alike {s : Step} {o : Outcome} (final : s.outcome? = some o) : o.Alike o := by
  cases s <;> cases final
  · exact .completed
  · exact .failed rfl

/-- Below a program there is nothing. -/
def Ground.program (rest : List Token) : Ground :=
  { Ground.empty with frames := [.program rest] }

/-- Code that is run by the last token of a program. -/
def Ground.code (r : Registry) (code : List Value) : Ground :=
  { Ground.empty with frames := [.body code, .program []], codeOnly := some r }

theorem Machine.releaseAll_append (m : Machine) (above below : List Frame) :
    m.releaseAll (above ++ below) = (m.releaseAll above).releaseAll below :=
  List.foldl_append

theorem Machine.releaseAll_of_free (m : Machine) {frames : List Frame}
    (free : ∀ f ∈ frames, f.floor? = none) : m.releaseAll frames = m := by
  induction frames with
  | nil => rfl
  | cons f frames ih =>
    obtain ⟨first, free⟩ := List.forall_mem_cons.1 free
    have kept : m.release f = m := by
      cases f <;> first | rfl | cases first
    rw [Machine.releaseAll, List.foldl_cons, kept]
    exact ih free

namespace Alike

variable {rest : List Token} {r : Registry} {code : List Value} {p : Pairing}
  {own own' : List Frame} {m n : Machine} {o o' : Outcome} {old : Nat}

section

variable (alike : Alike (.program rest) (.code r code) p own own' m n) (outcome : o.Alike o')
  (kept : ∀ i < old, p.rel i i)
include alike outcome kept

theorem ended {m' n' : Machine} (left : m'.operands.items = m.operands.items ∧ m'.scopes = m.scopes)
    (right : n'.operands.items = n.operands.items ∧ n'.scopes = n.scopes) :
    EndedAlike old (o, m') (o', n') := by
  obtain ⟨u, v, hm, hn, same⟩ := alike.items
  refine ⟨outcome, p.rel, p.one, kept, ?_, ?_⟩
  · have all : List.Forall₂ (Value.Same p.rel) (u ++ []) (v ++ []) := by simpa using same
    rw [Operands.toList, Operands.toList, left.1, right.1, hm, hn]
    exact sameAll_iff.2 (List.rel_reverse all)
  · rw [left.2, right.2]
    exact alike.active

/-- Giving up leaves the operands, and of the scopes the outermost. -/
theorem ended_released {m' n' : Machine}
    (left : m'.operands.items = (m.releaseAll own).operands.items ∧
      m'.scopes = (m.releaseAll own).scopes)
    (right : n'.operands.items = (n.releaseAll own').operands.items ∧
      n'.scopes = (n.releaseAll own').scopes) :
    EndedAlike old (o, m') (o', n') :=
  alike.releaseOwn.ended outcome kept left right

theorem ended_abort : EndedAlike old (o, m.abort) (o', n.abort) := by
  have left : m.releaseAll m.frames.toList = m.releaseAll own := by
    rw [alike.frames, Machine.releaseAll_append, Machine.releaseAll_of_free]
    exact List.forall_mem_singleton.2 rfl
  have right : n.releaseAll n.frames.toList = n.releaseAll own' := by
    rw [alike.frames', Machine.releaseAll_append, Machine.releaseAll_of_free]
    exact List.forall_mem_cons.2 ⟨rfl, List.forall_mem_singleton.2 rfl⟩
  refine alike.ended_released outcome kept ?_ ?_
  · rw [← left]
    exact ⟨rfl, rfl⟩
  · rw [← right]
    exact ⟨rfl, rfl⟩

end

end Alike

/-! ### Machines abreast -/

/-- Both machines are about to run an element of the program itself. Here the places that they have
seen last may differ. -/
structure Level (rest : List Token) (r : Registry) (code : List Value) (p : Pairing)
    (m n : Machine) : Prop where
  calm : m.control = .none
  alike : Alike (.program rest) (.code r code) p [] [] { m with origin := n.origin } n

/-- A machine that runs a program and one that runs its code. -/
inductive Abreast (old : Nat) : Machine → Machine → Prop
  | intro {rest r code p own own' k k' m n} : Alike (.program rest) (.code r code) p own own' m n →
      Collected r k rest code k' → p.Reserves old k k' → Abreast old m n
  | level {rest r code p k k' m n} : Level rest r code p m n → Collected r k rest code k' →
      p.Reserves old k k' → Abreast old m n

section

variable {rest : List Token} {r : Registry} {code : List Value} {p : Pairing}
  {own own' : List Frame} {old k k' : Nat} {m n : Machine}

theorem StepAlike.lockstep {x y : Step × Machine}
    (step : StepAlike (.program rest) (.code r code) p x y) (collected : Collected r k rest code k')
    (reserves : p.Reserves old k k') (awake : m.control ≠ .suspend) (awake' : n.control ≠ .suspend)
    (passed : m.pass = Machine.ending x) (passed' : n.pass = Machine.ending y) :
    Lockstep (Abreast old) (EndedAlike old) m n := by
  cases step with
  | @both q own own' s m' n' le alike =>
    cases final : s.outcome? with
    | none =>
      exact .both (.single (.pass awake passed final)) (.single (.pass awake' passed' final))
        (.intro alike collected (reserves.grow le))
    | some o =>
      exact .ends (.last ⟨awake, passed, final⟩) (.last ⟨awake', passed', final⟩)
        (alike.ended (Step.outcome?_alike final) (reserves.grow le).kept ⟨rfl, rfl⟩ ⟨rfl, rfl⟩)
  | @escapes q own own' e m' n' le alike free free' =>
    have left : ∀ f ∈ m'.frames.toList, f.attemptHeight? = none := by
      rw [alike.frames]
      exact List.forall_mem_append.2 ⟨free, List.forall_mem_singleton.2 rfl⟩
    have right : ∀ f ∈ n'.frames.toList, f.attemptHeight? = none := by
      rw [alike.frames']
      exact List.forall_mem_append.2
        ⟨free', List.forall_mem_cons.2 ⟨rfl, List.forall_mem_singleton.2 rfl⟩⟩
    rw [Machine.raiseError_of_passed left] at passed
    rw [Machine.raiseError_of_passed right] at passed'
    exact .ends (.last ⟨awake, passed, rfl⟩) (.last ⟨awake', passed', rfl⟩)
      (alike.ended_abort (.failed rfl) (reserves.grow le).kept)

theorem TurnAlike.lockstep {x y : Option Step × Machine}
    (turned : TurnAlike (.program rest) (.code r code) p x y)
    (collected : Collected r k rest code k') (reserves : p.Reserves old k k')
    (awake : m.control ≠ .suspend) (awake' : n.control ≠ .suspend) (passed : m.pass = x)
    (passed' : n.pass = y) : Lockstep (Abreast old) (EndedAlike old) m n := by
  cases turned with
  | goesOn le alike =>
    exact .both (.single (.pass awake passed rfl)) (.single (.pass awake' passed' rfl))
      (.intro alike collected (reserves.grow le))
  | ends step => exact step.lockstep collected reserves awake awake' passed passed'

/-! ### Signals -/

theorem Exec.not_refused_leaveLoop (m : Machine) : ¬ Refused (Exec.leaveLoop m) := by
  rintro ⟨m', failed, _⟩
  unfold Exec.leaveLoop at failed
  split at failed <;> simp [RuntimeError.breakOutsideLoop, RuntimeError.depthExceeded] at failed

theorem Exec.not_refused_replaceCall (c : Closure Value) (m : Machine) :
    ¬ Refused (Exec.replaceCall c m) := by
  rintro ⟨m', failed, _⟩
  cases split : m.frames.split? Frame.callFloor? with
  | none =>
    simp only [Exec.replaceCall, Bind.bind, EStateM.bind, Exec.get_apply, split] at failed
    simp [Exec.fail, Exec.throw_apply, RuntimeError.tailCallOutsideFunction,
      RuntimeError.depthExceeded] at failed
  | some found =>
    obtain ⟨above, floor, below⟩ := found
    rw [Exec.replaceCall_eq split] at failed
    have steady := Exec.steady_bindParameters c
      { m.releaseAll above with
        frames := m.frames.drop above.length
        scopes := (m.releaseAll above).scopes.leave.enter c.activation }
    simp only [Bind.bind, EStateM.bind] at failed
    generalize Exec.bindParameters c _ = x at steady failed
    cases x with
    | ok _ m₁ => cases failed
    | error signal m₁ =>
      obtain ⟨_, e, rfl, other⟩ := steady
      cases failed
      exact other rfl

/-- A break that reaches the program fails, whatever attempts there are. -/
theorem Machine.afterSignal_leaveLoop {above : List Frame} {tokens : List Token}
    (frames : m.frames.toList = above ++ [.program tokens])
    (passed : ∀ f ∈ above, f.loopEdge? = none) :
    ∃ e m', Machine.afterSignal (Exec.leaveLoop m) = (some (.failed e), m') ∧
      e.error = .breakOutsideLoop ∧
      m'.operands.items = (m.releaseAll above).operands.items ∧
      m'.scopes = (m.releaseAll above).scopes := by
  obtain ⟨below, split, _⟩ := Stack.split?_of_append frames passed
    (show (Frame.program tokens).loopEdge? = some false from rfl)
  let left : Machine := { m.releaseAll above with frames := m.frames.drop above.length }
  have remaining : left.frames.toList = [.program tokens] := by
    simp [left, frames]
  have failed : Exec.leaveLoop m = .error (.error .breakOutsideLoop) left := by
    simp only [Exec.leaveLoop, split]
    rfl
  have noAttempt : ∀ f ∈ left.frames.toList, f.attemptHeight? = none := by
    rw [remaining]
    exact List.forall_mem_singleton.2 rfl
  have kept : left.releaseAll left.frames.toList = left := by
    refine left.releaseAll_of_free ?_
    rw [remaining]
    exact List.forall_mem_singleton.2 rfl
  refine ⟨left.locate .breakOutsideLoop, left.abort, ?_, rfl, ?_⟩
  · rw [failed]
    change Machine.ending (left.raiseError _) = _
    rw [Machine.raiseError_of_passed noAttempt]
    rfl
  · change (left.releaseAll left.frames.toList).operands.items = _ ∧
      (left.releaseAll left.frames.toList).scopes = _
    rw [kept]
    exact ⟨rfl, rfl⟩

theorem EndAlike.lockstep {s t : Registers} {x y : EStateM.Result Signal Machine Unit}
    (ends : EndAlike (.program rest) (.code r code) p (fun _ (_ _ : Unit) => True) s t x y)
    (fits : ¬ Refused x) (fits' : ¬ Refused y) (collected : Collected r k rest code k')
    (reserves : p.Reserves old k k') (awake : m.control ≠ .suspend) (awake' : n.control ≠ .suspend)
    (passed : m.pass = Machine.afterSignal x) (passed' : n.pass = Machine.afterSignal y) :
    Lockstep (Abreast old) (EndedAlike old) m n := by
  have turned := ends.afterSignal.resolve_right fun limit => not_or.2 ⟨fits, fits'⟩ limit.2.either
  exact turned.lockstep collected reserves awake awake' passed passed'

namespace Alike

/-- Both machines wait for the same operation. -/
theorem lockstep_suspended (alike : Alike (.program rest) (.code r code) p own own' m n)
    (collected : Collected r k rest code k') (reserves : p.Reserves old k k')
    (asleep : m.control = .suspend) (asleep' : n.control = .suspend) :
    Lockstep (Abreast old) (EndedAlike old) m n := by
  have pending : Option.Rel (Pending.Same p.rel) m.pending n.pending :=
    alike.registers.pending asleep
  generalize waits : m.pending = x at pending
  generalize waits' : n.pending = y at pending
  cases pending with
  | none =>
    have resumed : Alike (.program rest) (.code r code) p own own' (m.resume none)
        (n.resume none) := alike.setControl (a := m.pending) (b := n.pending) .none nofun
    exact .both (.single (.resume asleep waits)) (.single (.resume asleep' waits'))
      (.intro resumed collected reserves)
  | some same =>
    cases same with
    | mk futures =>
      rcases futures.wait with ⟨reply, reply', time, waited, waited', replies⟩ | ⟨never, never'⟩
      · exact .both (.single (.answer asleep waits waited))
          (.single (.answer asleep' waits' waited'))
          (.intro (alike.answer replies) collected reserves)
      · exact .stuck (Machine.not_settlesIn asleep waits never)
          (Machine.not_settlesIn asleep' waits' never')

/-- Both machines deal with what the step before has left. -/
theorem lockstep_heed (alike : Alike (.program rest) (.code r code) p own own' m n)
    (collected : Collected r k rest code k') (reserves : p.Reserves old k k')
    (control : m.control ≠ .none) : Lockstep (Abreast old) (EndedAlike old) m n := by
  have same : m.control.Same p.rel n.control := alike.registers.control
  have calm : Alike (.program rest) (.code r code) p own own' { m with control := .none }
      { n with control := .none } := alike.setControl .none nofun
  generalize hm : m.control = c at same control
  generalize hn : n.control = d at same
  cases same with
  | none => exact absurd rfl control
  | suspend => exact alike.lockstep_suspended collected reserves hm hn
  | throw =>
    exact (calm.raiseError _).lockstep collected reserves (by simp [hm]) (by simp [hn])
      (Machine.pass_of_throw hm) (Machine.pass_of_throw hn)
  | «break» =>
    have passed := Machine.pass_of_break hm
    have passed' := Machine.pass_of_break hn
    by_cases edge : ∀ f ∈ own, f.loopEdge? = none
    · have edge' : ∀ f ∈ own' ++ [.body code], f.loopEdge? = none :=
        List.forall_mem_append.2
          ⟨passed_related Frame.Same.loopEdge? calm.same edge, List.forall_mem_singleton.2 rfl⟩
      have frames' : n.frames.toList = (own' ++ [.body code]) ++ [.program []] :=
        calm.frames'.trans (List.append_assoc own' [Frame.body code] [Frame.program []]).symm
      obtain ⟨e, m', failed, error, left⟩ := Machine.afterSignal_leaveLoop calm.frames edge
      obtain ⟨e', n', failed', error', right⟩ :=
        Machine.afterSignal_leaveLoop (m := { n with control := .none }) frames' edge'
      rw [Machine.releaseAll_append,
        Machine.releaseAll_of_free _ (List.forall_mem_singleton.2 rfl)] at right
      exact .ends (.last ⟨by simp [hm], passed.trans failed, rfl⟩)
        (.last ⟨by simp [hn], passed'.trans failed', rfl⟩)
        (calm.ended_released (.failed (error'.trans error.symm)) reserves.kept left right)
    · exact (calm.leaveLoop edge).lockstep (Exec.not_refused_leaveLoop _)
        (Exec.not_refused_leaveLoop _) collected reserves (by simp [hm]) (by simp [hn]) passed
        passed'
  | @tailCall c d cd =>
    have passed := Machine.pass_of_tailCall hm
    have passed' := Machine.pass_of_tailCall hn
    by_cases call : ∀ f ∈ own, f.callFloor? = none
    · have call' := passed_related Frame.Same.callFloor? calm.same call
      have failed := Exec.replaceCall_of_passed (by
        rw [calm.frames]
        exact List.forall_mem_append.2 ⟨call, List.forall_mem_singleton.2 rfl⟩) c
      have failed' := Exec.replaceCall_of_passed (by
        rw [calm.frames']
        exact List.forall_mem_append.2
          ⟨call', List.forall_mem_cons.2 ⟨rfl, List.forall_mem_singleton.2 rfl⟩⟩) d
      rw [failed] at passed
      rw [failed'] at passed'
      exact (calm.interrupt .error).lockstep collected reserves (by simp [hm]) (by simp [hn]) passed
        passed'
    · exact (calm.replaceCall cd call).lockstep (Exec.not_refused_replaceCall _ _)
        (Exec.not_refused_replaceCall _ _) collected reserves (by simp [hm]) (by simp [hn]) passed
        passed'

/-- Both machines deal with a frame above those of the program and of its code. -/
theorem lockstep_turn {f g : Frame}
    (alike : Alike (.program rest) (.code r code) p (f :: own) (g :: own') m n)
    (collected : Collected r k rest code k') (reserves : p.Reserves old k k')
    (calm : m.control = .none) (calm' : n.control = .none) :
    Lockstep (Abreast old) (EndedAlike old) m n := by
  rcases alike.turn with turned | ⟨_, refuses⟩
  · exact turned.lockstep collected reserves (by simp [calm]) (by simp [calm'])
      (Machine.pass_of_calm calm) (Machine.pass_of_calm calm')
  · rcases refuses.either with refuses | refuses
    · exact .limit (.inl ⟨m, .refl, calm, refuses⟩)
    · exact .limit (.inr ⟨n, .refl, calm', refuses⟩)

end Alike

/-! ### Elements of the program -/

/-- The last token of a program has begun to run code. -/
def Machine.loadCode (m : Machine) (code : List Value) : Machine :=
  { m with frames := (Stack.empty.push (.program [])).push (.body code), control := .none }

theorem Machine.turn_loadCode (v : Value) (code : List Value) (m : Machine) :
    (m.loadCode (v :: code)).turn =
      afterAdvance ((Exec.value v >>= fun _ => pure Tick.checkpoint) (m.loadCode code)) :=
  rfl

theorem Machine.moves_of_value {v : Value} {m' : Machine}
    (ran : Exec.value v (m.loadCode code) = .ok () m') :
    Moves (m.loadCode (v :: code)) m'.checkpoint.2 := by
  have turned : (m.loadCode (v :: code)).turn = ending m'.checkpoint := by
    rw [turn_loadCode]
    simp only [Bind.bind, EStateM.bind, ran]
    rfl
  exact .pass nofun ((pass_of_calm rfl).trans turned) rfl

theorem Machine.turn_of_value_error {v : Value} {m' : Machine} {signal : Signal}
    (ran : Exec.value v (m.loadCode code) = .error signal m') :
    (m.loadCode (v :: code)).turn = ending (m'.interrupt signal) := by
  rw [turn_loadCode]
  simp only [Bind.bind, EStateM.bind, ran]
  rfl

theorem Token.value_content {t : Token} (free : t.lexeme.delimits = false)
    (unnamed : ∀ text, t.lexeme ≠ .name text) (other : t.lexeme ≠ .closing .array) :
    Exec.value (t.content r) = Exec.push (t.content r) := by
  rw [Token.content]
  cases lexeme : t.lexeme with
  | name text => exact absurd lexeme (unnamed text)
  | opening bracket => cases bracket <;> rfl
  | closing bracket =>
    rw [lexeme] at free other
    cases bracket with
    | array => exact absurd rfl other
    | quote => cases free
    | params => cases free
  | _ => rfl

theorem Token.value_name {t : Token} {text : String} (registry : m.registry = r)
    (lexeme : t.lexeme = .name text) :
    Exec.value (t.content r) m = Exec.resolve text { m with origin := t.origin } := by
  cases found : r.get? text with
  | some b =>
    have content : t.content r = .op (.builtin b) t.origin := by
      simp only [Token.content, lexeme, found]
    rw [content, Exec.resolve_of_builtin (by rw [registry, found])]
    rfl
  | none =>
    have content : t.content r = .ref text t.origin := by
      simp only [Token.content, lexeme, found]
    rw [content]
    rfl

namespace Level

variable (level : Level rest r code p m n)
include level

theorem calm' : n.control = .none := level.alike.calm level.calm

theorem load_eq : m.load rest = m := by
  have frames : Stack.empty.push (.program rest) = m.frames := Stack.ext level.alike.frames.symm
  rw [Machine.load, frames, ← level.calm]

theorem loadCode_eq : n.loadCode code = n := by
  have frames : (Stack.empty.push (.program [])).push (.body code) = n.frames :=
    Stack.ext level.alike.frames'.symm
  rw [Machine.loadCode, frames, ← level.calm']

theorem closed : m.openQuotes = 0 ∧ m.openParams = 0 := by
  obtain ⟨_, quotes, params, _⟩ := level.alike.codeOnly r rfl
  exact ⟨quotes, params⟩

/-- One value comes onto each stack. The first machine may have given out identities that the other
one has had in reserve. -/
theorem took {v w : Value} {next : Nat} {m' : Machine} (took : m.Took [v] next m') {q : Pairing}
    (keeps : ∀ i j, p.rel i j → q.rel i j) (left : q.left = next) (right : q.right = p.right)
    (vw : v.Same q.rel w) (rest' : List Token) (code' : List Value) (checkpoints : Nat) :
    Level rest' r code' q (m'.load rest')
      { n.loadCode code' with operands := n.operands.push w, checkpoints } := by
  obtain ⟨calm, alike⟩ := level
  obtain ⟨u, u', hm, hn, items⟩ := alike.items
  obtain ⟨_, _, saved, saved', scopes, depth⟩ := alike.saved
  cases took with
  | intro taken =>
    refine ⟨rfl, ?_⟩
    exact
      { frames := rfl
        frames' := rfl
        same := .nil
        floors := alike.floors
        floors' := alike.floors'
        layered := trivial
        covered := Nat.zero_le _
        items := by
          refine ⟨v :: u, w :: u', ?_, ?_, .cons vw (items.imp fun _ _ same => same.mono keeps)⟩
          · exact taken.trans (congrArg (v :: ·) hm)
          · exact congrArg (w :: ·) hn
        height := rfl
        saved := ⟨_, _, saved, saved', scopes.imp fun _ _ same => same.mono keeps, depth⟩
        entering := rfl
        active := alike.active.mono keeps
        registers :=
          ⟨alike.registers.registry.mono keeps, alike.registers.maxFrames, .none, nofun⟩
        openQuotes := alike.openQuotes
        openParams := alike.openParams
        origin := rfl
        nextId := left.symm
        nextId' := alike.nextId'.trans right.symm
        codeOnly := fun s only =>
          have ⟨registry, quotes, params, _⟩ := alike.codeOnly s only
          ⟨registry, quotes, params, List.forall_mem_nil _⟩ }

/-- The element that comes next has been taken from its frame. -/
theorem next (origin : Origin) (rest' : List Token) (code' : List Value) :
    Alike (.program rest') (.code r code') p [] [] { m.load rest' with origin }
      { n.loadCode code' with origin } :=
  { level.alike with
    frames := rfl
    frames' := rfl
    registers := ⟨level.alike.registers.registry, level.alike.registers.maxFrames, .none, nofun⟩
    origin := rfl }

end Level

theorem Level.lockstep_push {v w : Value} {next : Nat} {m' : Machine} {rest' : List Token}
    {q : Pairing} (level : Level rest r (w :: code) p m n) (inert : Exec.value w = Exec.push w)
    (took : m.Took [v] next m') (moves : Relation.TransGen Machine.Moves m (m'.load rest'))
    (keeps : ∀ i j, p.rel i j → q.rel i j) (left : q.left = next) (right : q.right = p.right)
    (vw : v.Same q.rel w) (collected : Collected r k rest' code k')
    (reserves : q.Reserves old k k') :
    Lockstep (Abreast old) (EndedAlike old) m n := by
  have ran : Exec.value w (n.loadCode code) =
      .ok () { n.loadCode code with operands := n.operands.push w } := by
    rw [inert]
    rfl
  have moves' := Machine.moves_of_value ran
  rw [level.loadCode_eq] at moves'
  exact .both moves (.single moves')
    (.level (level.took took keeps left right vw rest' code _) collected reserves)

/-- A name means the same when the program meets it and when its element runs. -/
theorem Level.lockstep_name {t : Token} {text : String}
    (level : Level (t :: rest) r (t.content r :: code) p m n) (lexeme : t.lexeme = .name text)
    (collected : Collected r k rest code k') (reserves : p.Reserves old k k') :
    Lockstep (Abreast old) (EndedAlike old) m n := by
  obtain ⟨quotes, params⟩ := level.closed
  have ran : Exec.token t (m.load rest) =
      Exec.resolve text { m.load rest with origin := t.origin } :=
    Token.token_name quotes params lexeme
  have registry : (n.loadCode code).registry = r := (level.alike.codeOnly r rfl).1
  have ran' := Token.value_name registry lexeme
  have ends : EndAlike (.program rest) (.code r code) p (fun _ (_ _ : Unit) => True)
      (m.load rest).registers (n.loadCode code).registers (Exec.token t (m.load rest))
      (Exec.value (t.content r) (n.loadCode code)) := by
    rw [ran, ran']
    exact Parallel.resolve text p [] [] _ _ (le_refl p) (level.next t.origin rest code)
  have passed := (Machine.pass_of_calm level.calm).trans
    ((congrArg Machine.turn level.load_eq.symm).trans (Machine.turn_load t rest m))
  have passed' := (Machine.pass_of_calm level.calm').trans
    ((congrArg Machine.turn level.loadCode_eq.symm).trans (Machine.turn_loadCode _ code n))
  rcases (ends.thenPure Tick.checkpoint).afterAdvance with turned | ⟨_, refused⟩
  · exact turned.lockstep collected reserves (by simp [level.calm]) (by simp [level.calm']) passed
      passed'
  · rcases refused.either with refused | refused
    · have refuses : (m.load (t :: rest)).Refuses := ⟨_, _, rfl, refused⟩
      rw [level.load_eq] at refuses
      exact .limit (.inl ⟨m, .refl, level.calm, refuses⟩)
    · have refuses : (n.loadCode (t.content r :: code)).Refuses := ⟨_, _, rfl, refused⟩
      rw [level.loadCode_eq] at refuses
      exact .limit (.inr ⟨n, .refl, level.calm', refuses⟩)

theorem Exec.closeContainer_array {items : List Value} {s : Operands}
    (found : m.operands.popUntil (Exec.isMarker .arrayOpen) = some (items, s)) :
    Exec.closeContainer .array m = .ok () { m with
      operands := s.push (.array m.nextId items), nextId := m.nextId + 1 } := by
  simp only [Exec.closeContainer, Exec.popContainer, Exec.openingMarker, Bind.bind, EStateM.bind,
    found]
  rfl

theorem Exec.closeContainer_unmatched
    (missing : m.operands.popUntil (Exec.isMarker .arrayOpen) = none) :
    Exec.closeContainer .array m = .error (.error (.unmatched Bracket.array.closing)) m := by
  simp only [Exec.closeContainer, Exec.popContainer, Exec.openingMarker, Bind.bind, EStateM.bind,
    missing]

/-- A closing square bracket builds an array in both machines, or fails in both. -/
theorem Level.lockstep_closing {t : Token}
    (level : Level (t :: rest) r (t.content r :: code) p m n) (lexeme : t.lexeme = .closing .array)
    (collected : Collected r k rest code k') (reserves : p.Reserves old k k') :
    Lockstep (Abreast old) (EndedAlike old) m n := by
  have ran : Exec.token t (m.load rest) =
      Exec.closeContainer .array { m.load rest with origin := t.origin } := by
    have running : ¬ (Bracket.array = .array ∧ 0 < (m.load rest).openQuotes) := by
      simp [Machine.load, level.closed.1]
    simp only [Exec.token, lexeme]
    change (if Bracket.array = .array ∧ 0 < (m.load rest).openQuotes then Exec.push _
      else Exec.closeContainer .array) _ = _
    rw [if_neg running]
  have ran' : Exec.value (t.content r) (n.loadCode code) =
      Exec.closeContainer .array (n.loadCode code) := by
    simp only [Token.content, lexeme]
    rfl
  have alike := level.next n.origin rest code
  have respects {v w : Value} (vw : v.Same p.rel w) :
      Exec.isMarker .arrayOpen w = Exec.isMarker .arrayOpen v := by
    cases vw <;> rfl
  have popped : Option.Rel _ (m.operands.popUntil _) (n.operands.popUntil _) :=
    alike.operands.popUntil respects
  generalize found : m.operands.popUntil _ = x at popped
  generalize found' : n.operands.popUntil _ = y at popped
  cases popped with
  | none =>
    have turned := Machine.turn_of_token_error (ran.trans (Exec.closeContainer_unmatched found))
    have turned' := Machine.turn_of_value_error (ran'.trans (Exec.closeContainer_unmatched found'))
    rw [level.load_eq, ← Machine.pass_of_calm level.calm] at turned
    rw [level.loadCode_eq, ← Machine.pass_of_calm level.calm'] at turned'
    refine .ends (.last ⟨by simp [level.calm], turned, rfl⟩)
      (.last ⟨by simp [level.calm'], turned', rfl⟩) ?_
    refine alike.ended (.failed ?_) reserves.kept ?_ ?_
    · rfl
    · exact ⟨rfl, rfl⟩
    · exact ⟨rfl, rfl⟩
  | some related =>
    obtain ⟨ab, same, left, right⟩ := related
    have moves := Machine.moves_of_token (ran.trans (Exec.closeContainer_array found))
    have moves' := Machine.moves_of_value (ran'.trans (Exec.closeContainer_array found'))
    rw [level.load_eq] at moves
    rw [level.loadCode_eq] at moves'
    have taken := (alike.setOperands same left right).fresh
    have array := Value.Same.array p.rel_next (ab.grow p.le_next)
    have pushed := taken.setOperands (taken.operands.push array) rfl rfl
    rw [← alike.nextId, ← alike.nextId'] at pushed
    refine .both (.single moves) (.single moves')
      (.level ⟨rfl, ?_⟩ collected (reserves.grow p.le_next))
    exact pushed.checkpoint

/-- Both runs have come to their end. -/
theorem Level.lockstep_nil (level : Level [] r [] p m n) (kept : ∀ i < old, p.rel i i) :
    Lockstep (Abreast old) (EndedAlike old) m n := by
  have finishes {m : Machine} (calm : m.control = .none) (frames : m.frames = .empty)
      (quotes : m.openQuotes = 0) (params : m.openParams = 0) : m.SettlesIn 0 .completed m := by
    have turned : m.turn = (some .done, m) := by
      simp [Machine.turn, frames, Stack.pop?, Machine.finish, Machine.isCollecting, quotes, params,
        Machine.ending]
    exact .last ⟨by simp [calm], (Machine.pass_of_calm calm).trans turned, rfl⟩
  have left {m m' : Machine} (calm : m.control = .none) (turned : m.turn = (none, m')) :
      m.Moves m' :=
    .pass (by simp [calm]) ((Machine.pass_of_calm calm).trans turned) rfl
  obtain ⟨quotes, params⟩ := level.closed
  have quotes' := level.alike.openQuotes.trans quotes
  have params' := level.alike.openParams.trans params
  have done : (m.load []).SettlesIn 1 .completed { m.load [] with frames := .empty } :=
    .more (left rfl rfl) (finishes rfl rfl quotes params)
  have done' : (n.loadCode []).SettlesIn 2 .completed { n.loadCode [] with frames := .empty } :=
    .more (left rfl rfl) (.more (left rfl rfl) (finishes rfl rfl quotes' params'))
  rw [level.load_eq] at done
  rw [level.loadCode_eq] at done'
  exact .ends done done' (level.alike.ended .completed kept ⟨rfl, rfl⟩ ⟨rfl, rfl⟩)

/-- The next element of the program is dealt with in both machines. -/
theorem Level.lockstep (level : Level rest r code p m n) (collected : Collected r k rest code k')
    (reserves : p.Reserves old k k') : Lockstep (Abreast old) (EndedAlike old) m n := by
  obtain ⟨quotes, params⟩ := level.closed
  have floors : m.operands.floors = [] := level.alike.floors
  have builtins : Registry.Same p.rel m.registry r := by
    have registry := (level.alike.codeOnly r rfl).1
    rw [← registry]
    exact level.alike.registers.registry
  have started := level.load_eq
  cases collected with
  | nil => exact level.lockstep_nil reserves.kept
  | @plain _ _ t rest code free after =>
    by_cases closes : t.lexeme = .closing .array
    · exact level.lockstep_closing closes after reserves
    · by_cases named : ∃ text, t.lexeme = .name text
      · obtain ⟨text, lexeme⟩ := named
        exact level.lockstep_name lexeme after reserves
      · have unnamed : ∀ text, t.lexeme ≠ .name text := not_exists.1 named
        obtain ⟨m', took, ticks⟩ := Machine.took_token (m := m) free
          (fun text lexeme => absurd lexeme (unnamed text))
          (fun lexeme => absurd lexeme closes) rest
        have moves := Machine.moves_of_ticks ticks
        rw [started] at moves
        exact level.lockstep_push (Token.value_content free unnamed closes) took moves
          (fun _ _ h => h) level.alike.nextId.symm rfl (Token.content_same builtins t) after
          reserves
  | @quote _ k₁ _ opening closing inner rest body code opens closes inside after =>
    have le := inside.le
    have le' := after.le
    -- The first machine collects the quotation now; the identities are those in reserve.
    obtain ⟨body', inside', same⟩ := inside.shift m.registry m.nextId
    obtain ⟨m', took, ticks⟩ := Machine.took_quote opens closes floors inside'.takes
      inside'.isOpening rest
    have moves := Machine.moves_of_ticks ticks
    rw [started] at moves
    have count : k + (k₁ + 1 - k) ≤ k' := by omega
    let q := p.adopt reserves (k₁ + 1 - k) count
    have keeps : ∀ i j, p.rel i j → q.rel i j := fun _ _ paired => .inl paired
    have nextId : m.nextId = p.left := level.alike.nextId
    have pairs : ∀ d < k₁ + 1 - k, q.rel (m.nextId + d) (k + d) := fun d lt =>
      .inr ⟨d, lt, by rw [nextId], rfl⟩
    have bodies := same q.rel (builtins.mono keeps) fun d lt => pairs d (by omega)
    have own := pairs (k₁ - k) (by omega)
    rw [show k + (k₁ - k) = k₁ by omega] at own
    have reserves' := reserves.adopt count
    rw [show k + (k₁ + 1 - k) = k₁ + 1 by omega] at reserves'
    refine level.lockstep_push rfl took moves keeps ?_ rfl (.quote own bodies) after reserves'
    change p.left + (k₁ + 1 - k) = m.nextId + (k₁ - k) + 1
    omega
  | @params _ _ opening closing inner rest signature code opens closes list read after =>
    have contents := Token.contents_same builtins inner
    obtain ⟨m', took, ticks⟩ := Machine.took_params opens closes floors list
      (contents.ofValues.symm.trans read) rest
    have moves := Machine.moves_of_ticks ticks
    rw [started] at moves
    exact level.lockstep_push rfl took moves (fun _ _ h => h) level.alike.nextId.symm rfl
      (.plain rfl) after reserves

theorem Abreast.lockstep (abreast : Abreast old m n) :
    Lockstep (Abreast old) (EndedAlike old) m n := by
  cases abreast with
  | level level collected reserves => exact level.lockstep collected reserves
  | @intro rest r code p own own' k k' _ _ alike collected reserves =>
    by_cases calm : m.control = .none
    · have level : Level rest r code p m n → Lockstep (Abreast old) (EndedAlike old) m n :=
        fun level => level.lockstep collected reserves
      have same := alike.same
      cases same with
      | nil =>
        refine level ⟨calm, ?_⟩
        rw [alike.origin]
        exact alike
      | cons _ _ => exact alike.lockstep_turn collected reserves calm (alike.calm calm)
    · exact alike.lockstep_heed collected reserves calm

end

end Catena
