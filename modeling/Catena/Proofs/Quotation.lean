import Catena.Proofs.Abreast
import Catena.Proofs.Freshness

set_option autoImplicit false

/-!
Quotations are transparent. Running a program and running the quotation of it come to the same: both
runs end normally or with the same error, with the same operands and the same active scope.
-/

namespace Catena

variable {m : Machine} {tokens quoted : List Token} {code : List Value} {name : String} {k : Nat}

/-- The program `{ tokens } call`. -/
inductive Quotes (tokens : List Token) : List Token → Prop
  | intro {opening closing call : Token} : opening.lexeme = .opening .quote →
      closing.lexeme = .closing .quote → call.lexeme = .name "call" →
      Quotes tokens (opening :: (tokens ++ [closing, call]))

theorem Exec.invokeOperation_call {id : Nat} {s : Operands}
    (popped : m.operands.pop = .ok (.quote id code, s)) :
    Exec.invokeOperation (.builtin ⟨name, .primitive .call⟩) m =
      Exec.pushFrame (.body code) { m with operands := s } := by
  have ran : Exec.operation (.builtin ⟨name, .primitive .call⟩) m =
      .ok (some (.quote id code)) { m with operands := s } := by
    change (some <$> Exec.popCallable Primitive.call.name) m = _
    simp only [Exec.popCallable, Exec.popAs, Exec.pop, Functor.map, EStateM.map, Bind.bind,
      EStateM.bind, popped]
    rfl
  rw [Exec.invokeOperation, Parallel.invoke_op]
  simp only [Bind.bind, EStateM.bind, ran]
  rw [Exec.invoke]

/-- The code of a quotation has been called, and the program it was made from is loaded. -/
theorem Machine.Fresh.abreast {items : Stack Value} (fresh : m.Fresh) (idle : m.Idle)
    (collected : Collected m.registry m.nextId tokens code k)
    (left : items.toList = m.operands.items.toList) (origin : Origin) (checkpoints : Nat) :
    Abreast m.nextId (m.load tokens) { m.loadCode code with
      operands := ⟨items, m.operands.floors⟩, nextId := k + 1, origin, checkpoints } := by
  have le := collected.le
  have ahead : m.nextId ≤ k + 1 := by omega
  have reserves : (m.ahead ahead).Reserves m.nextId m.nextId k := by
    refine ⟨fun i lt => ⟨rfl, lt⟩, ?_, Nat.le_succ k, ?_⟩
    · rintro i _ ⟨rfl, lt⟩
      exact ⟨lt, Nat.lt_of_lt_of_le lt ahead⟩
    · rintro i _ ⟨rfl, lt⟩ ⟨reserved, _⟩
      exact Nat.not_le.2 lt reserved
  refine .level (p := m.ahead ahead) ⟨rfl, ?_⟩ collected reserves
  have values : List.Forall₂ (Value.Same m.Given) m.operands.items.toList items.toList := by
    rw [left]
    exact fresh.items
  exact {
    frames := rfl
    frames' := rfl
    same := .nil
    floors := idle.floors
    floors' := idle.floors
    layered := trivial
    covered := Nat.zero_le _
    items := ⟨_, _, (List.append_nil _).symm, (List.append_nil _).symm, values⟩
    height := rfl
    saved := ⟨[], [], idle.saved, idle.saved, .nil, rfl⟩
    entering := rfl
    active := fresh.active
    registers := ⟨fresh.registry, rfl, .none, nofun⟩
    openQuotes := rfl
    openParams := rfl
    origin := rfl
    nextId := rfl
    nextId' := rfl
    codeOnly := by
      rintro _ ⟨⟩
      exact ⟨rfl, idle.openQuotes, idle.openParams, List.forall_mem_nil _⟩
  }

/-- The last token calls the quotation on top of the stack. -/
theorem Machine.token_call {call : Token} {id : Nat} {below : List Value}
    (calls : call.lexeme = .name "call")
    (knows : m.registry.get? "call" = some ⟨name, .primitive .call⟩) (quotes : m.openQuotes = 0)
    (params : m.openParams = 0) (floors : m.operands.floors = [])
    (top : m.operands.items.toList = .quote id code :: below) :
    Exec.token call (m.load []) = Exec.pushFrame (.body code) { m.load [] with
      operands := ⟨m.operands.items.drop 1, m.operands.floors⟩, origin := call.origin } := by
  have popped : m.operands.pop =
      .ok (.quote id code, ⟨m.operands.items.drop 1, m.operands.floors⟩) := by
    have reachable : m.operands.accessible ≠ 0 := by
      have height := congrArg List.length top
      rw [Stack.length_eq, List.length_cons] at height
      rw [Operands.accessible, Operands.count, Operands.floor, floors, height]
      exact Nat.succ_ne_zero _
    have first : m.operands.items.pop? = some (.quote id code, m.operands.items.drop 1) := by
      simp only [Stack.pop?, top]
    rw [Operands.pop, if_neg reachable]
    simp only [first]
  rw [Token.token_name (m := m.load []) quotes params calls,
    Exec.resolve_of_builtin (m := { m.load [] with origin := call.origin }) knows]
  exact Exec.invokeOperation_call popped

/-- The machine collects the quotation and calls it. -/
theorem Machine.Fresh.started (fresh : m.Fresh) (idle : m.Idle)
    (knows : m.registry.get? "call" = some ⟨name, .primitive .call⟩) (quotes : Quotes tokens quoted)
    (collected : Collected m.registry m.nextId tokens code k) :
    (m.load quoted).MeetsLimit ∨
      ∃ n, Relation.TransGen Moves (m.load quoted) n ∧ Abreast m.nextId (m.load tokens) n := by
  obtain ⟨opens, closes, calls⟩ := quotes
  rename_i opening closing call
  obtain ⟨m', took, ticks⟩ := Machine.took_quote opens closes idle.floors collected.takes
    collected.isOpening [call]
  have moves := Machine.moves_of_ticks ticks
  cases took with
  | @intro items origin checkpoints taken =>
    let m₁ : Machine :=
      { m with operands := ⟨items, m.operands.floors⟩, nextId := k + 1, origin, checkpoints }
    have top : m₁.operands.items.toList = .quote k code :: m.operands.items.toList := taken
    have ran := m₁.token_call calls knows idle.openQuotes idle.openParams idle.floors top
    let ready : Machine :=
      { m₁.load [] with operands := ⟨items.drop 1, m.operands.floors⟩, origin := call.origin }
    by_cases full : m.maxFrames ≤ 1
    · have refused : Exec.token call (m₁.load []) = .error (.error .depthExceeded) ready := by
        rw [ran]
        change (if m.maxFrames ≤ 1 then _ else _) = _
        rw [if_pos full]
      have advanced : Exec.advance (.program [call]) .empty (m₁.load [call]) =
          .error (.error .depthExceeded) ready := by
        rw [Machine.advance_load]
        simp only [Bind.bind, EStateM.bind, refused]
      have deep : m.maxFrames < 3 := by omega
      exact .inl ⟨m₁.load [call], moves.to_reflTransGen, rfl, _, _, rfl, ready, advanced, deep⟩
    · have entered : Exec.token call (m₁.load []) =
          .ok () { ready with frames := ready.frames.push (.body code) } := by
        rw [ran]
        change (if m.maxFrames ≤ 1 then _ else _) = _
        rw [if_neg full]
      have left : (items.drop 1).toList = m.operands.items.toList := congrArg (List.drop 1) top
      exact .inr ⟨_, moves.tail (Machine.moves_of_token entered),
        fresh.abreast idle collected left call.origin (checkpoints + 1)⟩

/-- Runs of a program and of its quotation settle together. -/
theorem Machine.Fresh.settlesIn (fresh : m.Fresh) (idle : m.Idle)
    (knows : m.registry.get? "call" = some ⟨name, .primitive .call⟩) (quotable : Quotable tokens)
    (quotes : Quotes tokens quoted) (free : ¬ (m.load tokens).MeetsLimit)
    (free' : ¬ (m.load quoted).MeetsLimit) :
    SettlesAs (EndedAlike m.nextId) (m.load tokens) (m.load quoted) ∧
      SettlesAs (flip (EndedAlike m.nextId)) (m.load quoted) (m.load tokens) := by
  obtain ⟨code, k, collected⟩ := quotable.collected m.registry m.nextId
  obtain ⟨n, moves, abreast⟩ := (fresh.started idle knows quotes collected).resolve_left free'
  have free'' : ¬ n.MeetsLimit := fun meets => free' (meets.before moves.to_reflTransGen)
  constructor
  · intro i o m' settles
    obtain ⟨j, o', n', settles', ended⟩ :=
      settles.lockstep (fun _ _ abreast => abreast.lockstep) abreast free free''
    obtain ⟨j', whole⟩ := settles'.before moves.to_reflTransGen
    exact ⟨j', o', n', whole, ended⟩
  · intro i o n' settles
    obtain ⟨_, _, settles'⟩ := settles.after moves
    exact settles'.lockstep (R := flip (Abreast m.nextId))
      (fun _ _ abreast => abreast.lockstep.symm) abreast free'' free

/-- A host that waits for every operation sees both runs end, and alike, or neither. -/
structure Run.SettleAlike (old : Nat) (r s : Run) : Prop where
  forth : ∀ limit o r', r.finish .unlimited limit = (some o, r') →
    ∃ limit' o' s', s.finish .unlimited limit' = (some o', s') ∧
      EndedAlike old (o, r'.machine) (o', s'.machine)
  back : ∀ limit o' s', s.finish .unlimited limit = (some o', s') →
    ∃ limit' o r', r.finish .unlimited limit' = (some o, r') ∧
      EndedAlike old (o, r'.machine) (o', s'.machine)

/-- On an idle machine it does not matter whether a program is run or its quotation is called. -/
theorem quotation_transparent (idle : m.Idle) (fresh : m.Fresh)
    (knows : m.registry.get? "call" = some ⟨name, .primitive .call⟩) (quotable : Quotable tokens)
    (quotes : Quotes tokens quoted) (free : ¬ (m.load tokens).MeetsLimit)
    (free' : ¬ (m.load quoted).MeetsLimit) :
    Run.SettleAlike m.nextId (Run.start m tokens) (Run.start m quoted) := by
  have opened := idle.opened tokens
  have opened' := idle.opened quoted
  obtain ⟨forth, back⟩ := fresh.settlesIn idle knows quotable quotes free free'
  exact ⟨fun _ _ _ => forth.finish opened opened', fun _ _ _ => back.finish opened' opened⟩

/-- The program `[ f ] { 2 }`. -/
def arrayThenQuotation : List Token :=
  [⟨.opening .array, .none⟩, ⟨.name "f", .none⟩, ⟨.closing .array, .none⟩,
    ⟨.opening .quote, .none⟩, ⟨.int 2, .none⟩, ⟨.closing .quote, .none⟩]

/-- The program `{ [ f ] { 2 } } call`. -/
def arrayThenQuotationQuoted : List Token :=
  ⟨.opening .quote, .none⟩ ::
    (arrayThenQuotation ++ [⟨.closing .quote, .none⟩, ⟨.name "call", .none⟩])

/-- The array gets its identity before the quotation does, and after it when both are quoted. -/
theorem quotation_transparent_reordered :
    Quotes arrayThenQuotation arrayThenQuotationQuoted ∧
      (∃ limit r, (Run.start .knowing arrayThenQuotation).finish .unlimited limit =
          (some .completed, r) ∧
        r.machine.operands.toList = [.array 1 [.int 1], .quote 2 [.int 2]]) ∧
      Run.SettleAlike 1 (Run.start .knowing arrayThenQuotation)
        (Run.start .knowing arrayThenQuotationQuoted) := by
  have quotes : Quotes arrayThenQuotation arrayThenQuotationQuoted := .intro rfl rfl rfl
  have quotable : Quotable arrayThenQuotation :=
    .plain rfl (.plain rfl (.plain rfl (.quote rfl rfl (.plain rfl .nil) .nil)))
  have idle : Machine.knowing.Idle := ⟨rfl, rfl, rfl, rfl, rfl, rfl⟩
  have fresh : Machine.knowing.Fresh := by
    refine ⟨.nil, ?_, Registry.standard_same _⟩
    exact .mk (.cons (.closure (.mk ⟨rfl, Nat.one_pos⟩ (.cons (.plain rfl) .nil) (.mk .nil))) .nil)
  have free : ¬ (Machine.knowing.load arrayThenQuotation).MeetsLimit := by
    intro meets
    iterate 10 replace meets := meets.turn rfl rfl rfl rfl
    exact Machine.not_meetsLimit rfl rfl rfl meets
  have free' : ¬ (Machine.knowing.load arrayThenQuotationQuoted).MeetsLimit := by
    intro meets
    iterate 8 replace meets := meets.turn rfl rfl rfl rfl
    let code : List Value :=
      [.marker .arrayOpen, .ref "f" .none, .marker .arrayClose, .quote 1 [.int 2]]
    let collected : Machine := { Machine.knowing with
      operands := Operands.empty.push (.quote 2 code), nextId := 3, checkpoints := 8 }
    let called : Machine := { collected.loadCode code with operands := .empty }
    have entered : Exec.token ⟨.name "call", .none⟩ (collected.load []) = .ok () called :=
      (collected.token_call rfl rfl rfl rfl rfl rfl).trans rfl
    replace meets : (collected.load [⟨.name "call", .none⟩]).MeetsLimit := meets
    replace meets := meets.token entered
    iterate 5 replace meets := meets.turn rfl rfl rfl rfl
    let returned : Machine := { collected.loadCode (code.drop 2) with
      operands := (Operands.empty.push (.marker .arrayOpen)).push (.int 1), checkpoints := 12 }
    replace meets : returned.MeetsLimit := meets
    iterate 4 replace meets := meets.turn rfl rfl rfl rfl
    exact Machine.not_meetsLimit rfl rfl rfl meets
  let after : Machine := { Machine.knowing with
    operands := (Operands.empty.push (.array 1 [.int 1])).push (.quote 2 [.int 2])
    nextId := 3
    checkpoints := 7 }
  have settles : (Machine.knowing.load arrayThenQuotation).SettlesIn 10 .completed after := by
    iterate 10 refine .more (.pass nofun rfl rfl) ?_
    exact .last ⟨nofun, rfl, rfl⟩
  obtain ⟨limit, r, finished, machine⟩ := Run.finishFrom_of_settlesIn 0 (idle.opened _) settles
  refine ⟨quotes, ⟨limit, r, finished, ?_⟩, ?_⟩
  · rw [machine]
    rfl
  · exact quotation_transparent idle fresh rfl quotable quotes free free'

end Catena
