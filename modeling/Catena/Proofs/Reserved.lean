import Catena.Proofs.Hosting
import Catena.Proofs.Keeping

set_option autoImplicit false

/-!
The names of builtins. A definition that would bind the name of a builtin is refused, but parameters
are bound without a look at the builtins, and a running closure finds itself under a name of its
own. So the name of a builtin gets into a scope only with a call, or in a closure that the host
hands over; from there it spreads to the closures that capture the scope.
-/

namespace Catena

/-! ### Sessions -/

/-- The scopes in a machine: those in use, and those that closures have captured, however deep
inside other values the closures are. -/
inductive Machine.HoldsScope (m : Machine) : Scope → Prop
  | active : HoldsScope m m.scopes.active
  | saved {scope : Scope} : scope ∈ m.scopes.saved → HoldsScope m scope
  | captured {c : Closure Value} : m.Holds (.closure c) → HoldsScope m c.scope

/-- Programs run on a machine one after another, and each may be given up. The states that have been
passed, the latest first. -/
inductive Machine.History (start : Machine) : List Machine → Machine → Prop
  | start : History start [] start
  | load {past m} (tokens : List Token) : History start past m →
      History start (m :: past) (m.load tokens)
  | moves {past m m'} : History start past m → m.Moves m' → History start (m :: past) m'
  | ends {past m o m'} : History start past m → m.Ends o m' → History start (m :: past) m'
  | abort {past m} : History start past m → History start (m :: past) m.abort

/-- In one of the states a closure was running that has a parameter of that name. -/
def Called (states : List Machine) (name : String) : Prop :=
  ∃ m ∈ states, ∃ c floor, Frame.call c floor ∈ m.frames.toList ∧ name ∈ c.paramNames

/-- Whether a closure comes with a name, captured or its own. -/
def Value.Brings : Value → String → Prop
  | .closure c, name => name ∈ c.scope.names ∨ c.name = some name
  | _, _ => False

/-- A builtin of the host hands over a value with a closure inside that comes with the name. -/
def Registry.Supplies (r : Registry) (name : String) : Prop :=
  ∃ own b v w, r.get? own = some b ∧ v ∈ b.action.parts ∧ Value.Inside w v ∧ w.Brings name

/-- The names that may be bound after the states. -/
def Rule.reserving (r : Registry) (states : List Machine) : Rule where
  marker _ := True
  place _ := True
  name name := r.contains name = false ∨ name = Closure.selfName ∨ Called states name ∨
    r.Supplies name
  self := .inr (.inl rfl)
  loose := True

section

variable {r : Registry} {states : List Machine} {m m' : Machine}

theorem Called.cons {name : String} (called : Called states name) (m : Machine) :
    Called (m :: states) name := by
  obtain ⟨k, member, running⟩ := called
  exact ⟨k, List.mem_cons_of_mem _ member, running⟩

theorem Rule.stricter_reserving (m : Machine) :
    (Rule.reserving r states).Stricter (.reserving r (m :: states)) where
  marker _ _ := trivial
  place _ _ := trivial
  name _ allowed := by
    rcases allowed with free | self | called | supplied
    · exact .inl free
    · exact .inr (.inl self)
    · exact .inr (.inr (.inl (called.cons m)))
    · exact .inr (.inr (.inr supplied))
  loose _ := trivial

theorem Rule.reads_reserving (t : Token) : (Rule.reserving r states).Reads t where
  place := trivial
  opens _ _ := ⟨trivial, trivial⟩
  arrow := trivial
  arrayClose := trivial

theorem Rule.admits_reserving (m : Machine) : Exec.Admits (.reserving r (m :: states)) m :=
  fun c floor running _ param =>
    .inr (.inr (.inl ⟨m, List.mem_cons_self, c, floor, running, param⟩))

/-- What builtins hand over keeps to the rule, which takes it into account. -/
theorem Registry.obeys_reserving {own : String} {b : Builtin Value} (known : r.get? own = some b) :
    AllObey (.reserving r states) b.action.parts := by
  refine fun v member => ⟨fun w inside => ?_, fun _ => trivial⟩
  have supplied {name : String} (brings : w.Brings name) : (Rule.reserving r states).name name :=
    .inr (.inr (.inr ⟨own, b, v, w, known, member, inside, brings⟩))
  cases w with
  | closure c =>
    exact ⟨fun name captured => supplied (.inl captured), fun name named => supplied (.inr named)⟩
  | array id items => exact fun _ _ _ => trivial
  | op o origin => exact ⟨trivial, fun _ _ _ => trivial⟩
  | _ => trivial

/-! ### Builtins stay -/

namespace Machine

theorem registry_abort (m : Machine) : m.abort.registry = m.registry :=
  congrArg Registers.registry (m.registers_releaseAll m.frames.toList)

theorem Moves.registry (moves : m.Moves m') : m'.registry = m.registry := by
  cases moves with
  | pass _ passed _ =>
    have tallied := m.tallied_pass
    rw [passed] at tallied
    exact tallied.registry
  | @answer _ reply _ _ _ _ => cases reply <;> rfl
  | resume _ _ => rfl

theorem Ends.registry {o : Outcome} (ends : m.Ends o m') : m'.registry = m.registry := by
  cases ends with
  | intro _ passed _ =>
    have tallied := m.tallied_pass
    rw [passed] at tallied
    exact tallied.registry

theorem History.registry {start : Machine} {past : List Machine} (history : start.History past m) :
    m.registry = start.registry := by
  induction history with
  | start => rfl
  | load tokens _ ih => exact ih
  | moves _ moves ih => exact moves.registry.trans ih
  | ends _ ends ih => exact ends.registry.trans ih
  | @abort _ m _ ih => exact m.registry_abort.trans ih

/-! ### Names in scopes -/

/-- Only what a call binds is new to the rule, and the rule grows with the states. -/
theorem History.obeys {start : Machine} {past : List Machine} (history : start.History past m)
    (obeys : start.Obeys (.reserving r [start])) : m.Obeys (.reserving r (m :: past)) := by
  induction history with
  | start => exact obeys
  | load tokens _ ih => exact (ih.load tokens).mono (Rule.stricter_reserving _)
  | moves _ moves ih =>
    exact (ih.mono (Rule.stricter_reserving _)).moves moves (Rule.admits_reserving _)
      fun t _ => Rule.reads_reserving t
  | ends _ ends ih =>
    exact (ih.mono (Rule.stricter_reserving _)).ends ends (Rule.admits_reserving _)
      fun t _ => Rule.reads_reserving t
  | abort _ ih => exact ih.abort.mono (Rule.stricter_reserving _)

theorem Obeys.names {R : Rule} {scope : Scope} (obeys : m.Obeys R) (holds : m.HoldsScope scope) :
    ∀ name ∈ scope.names, R.name name := by
  cases holds with
  | active => exact obeys.active.names
  | saved member => exact (obeys.saved scope member).names
  | captured held => exact (obeys.holds held).1

end Machine

end

/-! ### Definitions -/

/-- The machine with other builtins. -/
def Machine.equip (m : Machine) (r : Registry) : Machine := { m with registry := r }

namespace Exec

variable {α β : Type}

def equipped (r : Registry) : EStateM.Result Signal Machine α → EStateM.Result Signal Machine α
  | .ok a m => .ok a (m.equip r)
  | .error signal m => .error signal (m.equip r)

/-- Actions that do not look at the builtins and bind no names. -/
structure Prepares (x : Exec α) : Prop where
  blind : ∀ m r, x (m.equip r) = equipped r (x m)
  scopes : ∀ m, (left (x m)).scopes = m.scopes

/-- Actions that bind names, each of which must not be that of a builtin: then there is a conflict
and nothing is bound. What such an action would bind is what it binds if there are no builtins. -/
def Defines (x : Exec α) : Prop :=
  ∀ m a m₁, x (m.equip .empty) = .ok a m₁ → ∃ pairs : List (String × Value), pairs ≠ [] ∧
    m₁.scopes = ⟨m.scopes.active.insertAll pairs, m.scopes.saved⟩ ∧
    ((∀ pair ∈ pairs, m.isBuiltin pair.1 = false) → x m = .ok a (m₁.equip m.registry)) ∧
    ((∃ pair ∈ pairs, m.isBuiltin pair.1 = true) →
      ∃ text m₂, x m = .error (.error (.conflict text)) m₂ ∧ m₂.scopes = m.scopes)

theorem Prepares.registry {x : Exec α} (prepares : Prepares x) (m : Machine) :
    (left (x m)).registry = m.registry := by
  have same := prepares.blind m m.registry
  have own : m.equip m.registry = m := rfl
  rw [own] at same
  rw [same]
  cases x m <;> rfl

theorem Prepares.bind {x : Exec α} {f : α → Exec β} (first : Prepares x)
    (next : ∀ a, Prepares (f a)) : Prepares (x >>= f) where
  blind m r := by
    simp only [Bind.bind, EStateM.bind, first.blind m r]
    cases x m with
    | ok a m' => exact (next a).blind m' r
    | error signal m' => rfl
  scopes m := by
    have before := first.scopes m
    simp only [Bind.bind, EStateM.bind]
    cases ran : x m with
    | ok a m' =>
      rw [ran] at before
      exact ((next a).scopes m').trans before
    | error signal m' =>
      rw [ran] at before
      exact before

theorem prepares_pure (a : α) : Prepares (pure a : Exec α) := ⟨fun _ _ => rfl, fun _ => rfl⟩

theorem prepares_fail (e : RuntimeError) : Prepares (fail e : Exec α) :=
  ⟨fun _ _ => rfl, fun _ => rfl⟩

theorem prepares_ofExcept (x : Except RuntimeError α) : Prepares (ofExcept x) := by
  cases x with
  | ok a => exact prepares_pure a
  | error e => exact prepares_fail e

/-- Reading the machine, but not its builtins. -/
theorem prepares_get {f : Machine → Exec α} (same : ∀ m r, f (m.equip r) = f m)
    (next : ∀ m, Prepares (f m)) : Prepares (get >>= f) where
  blind m r := by
    simp only [Bind.bind, EStateM.bind, get_apply, same]
    exact (next m).blind m r
  scopes m := (next m).scopes m

theorem prepares_pop : Prepares pop where
  blind m r := by
    simp only [pop, Machine.equip]
    cases m.operands.pop <;> rfl
  scopes m := by
    simp only [pop]
    cases m.operands.pop <;> rfl

theorem prepares_popAs {operator expected : String} {read? : Value → Option α} :
    Prepares (popAs operator expected read?) := by
  refine prepares_pop.bind fun v => ?_
  cases read? v with
  | some a => exact prepares_pure a
  | none => exact prepares_fail _

theorem prepares_popSignature? : Prepares popSignature? := by
  refine prepares_get (fun _ _ => rfl) fun m => ?_
  split
  · exact prepares_pop.bind fun _ => prepares_pure _
  · exact prepares_pure _

theorem prepares_popPairs (operator : String) : Prepares (popPairs operator) := by
  refine prepares_pop.bind fun v => ?_
  split
  · exact (prepares_ofExcept _).bind fun _ => prepares_pure _
  · exact prepares_fail _

theorem prepares_close (name : Option String) (body : List Value) (signature : Option Signature) :
    Prepares (close name body signature) := by
  have fresh : Prepares fresh := ⟨fun _ _ => rfl, fun _ => rfl⟩
  exact fresh.bind fun _ => prepares_get (fun _ _ => rfl) fun _ => prepares_pure _

theorem Prepares.defines {x : Exec α} {f : α → Exec β} (first : Prepares x)
    (next : ∀ a, Defines (f a)) : Defines (x >>= f) := by
  intro m b m₁ ran
  have scopes := first.scopes m
  have registry := first.registry m
  simp only [Bind.bind, EStateM.bind, first.blind] at ran ⊢
  cases prepared : x m with
  | error signal m' =>
    rw [prepared] at ran
    cases ran
  | ok a m' =>
    rw [prepared] at ran scopes registry
    change m'.scopes = m.scopes at scopes
    change m'.registry = m.registry at registry
    have defined := next a m' b m₁ ran
    simpa only [Machine.isBuiltin, scopes, registry] using defined

theorem defines_get {f : Machine → Exec α} (same : ∀ m r, f (m.equip r) = f m)
    (next : ∀ m, Defines (f m)) : Defines (get >>= f) := by
  intro m a m₁ ran
  simp only [Bind.bind, EStateM.bind, get_apply, same] at ran ⊢
  exact next m m a m₁ ran

theorem Defines.plain {x : Exec Unit} (defines : Defines x) : Defines (plain x) := by
  intro m a m₁ ran
  obtain ⟨_, mid, defined, last⟩ := bind_eq_ok ran
  cases last
  obtain ⟨pairs, some, scopes, kept, conflict⟩ := defines m _ _ defined
  refine ⟨pairs, some, scopes, fun free => ?_, fun taken => ?_⟩
  · simp only [Exec.plain, Bind.bind, EStateM.bind, kept free]
    rfl
  · obtain ⟨text, m₂, failed, same⟩ := conflict taken
    refine ⟨text, m₂, ?_, same⟩
    simp only [Exec.plain, Bind.bind, EStateM.bind, failed]

theorem defines_define (name : String) (v : Value) : Defines (define name v) := by
  intro m a m₁ ran
  cases ran
  refine ⟨[(name, v)], List.cons_ne_nil _ _, rfl, fun free => ?_, fun taken => ?_⟩
  · have free : m.isBuiltin name = false := free _ List.mem_cons_self
    simp only [define, change, Machine.define, free]
    rfl
  · obtain ⟨pair, member, taken⟩ := taken
    cases List.mem_singleton.1 member
    have failed : define name v m = .error (.error (.redefinesBuiltin name)) m := by
      simp only [define, change, Machine.define, if_pos taken]
    exact ⟨_, m, failed, rfl⟩

theorem declare_of_free {m : Machine} {decl : Declaration}
    (free : ∀ d ∈ decl.operations m.scopes.active m.origin, m.isBuiltin d.name = false) :
    change (·.declare decl) m = .ok () { m with
      scopes := ⟨m.scopes.active.insertAll (Declaration.entries m.origin
        (decl.operations m.scopes.active m.origin)), m.scopes.saved⟩ } := by
  have none : (decl.operations m.scopes.active m.origin).find? (m.isBuiltin ·.name) = none :=
    List.find?_eq_none.2 fun d member => Bool.eq_false_iff.1 (free d member)
  simp only [change, Machine.declare, none]

theorem declare_of_taken {m : Machine} {decl : Declaration}
    (taken : ∃ d ∈ decl.operations m.scopes.active m.origin, m.isBuiltin d.name = true) :
    ∃ name, change (·.declare decl) m = .error (.error (.shadowsBuiltin decl.name name)) m := by
  obtain ⟨d, found⟩ := Option.isSome_iff_exists.1 (List.find?_isSome.2 taken)
  refine ⟨d.name, ?_⟩
  simp only [change, Machine.declare, found]

theorem defines_declare (decl : Declaration) : Defines (change (·.declare decl)) := by
  intro m a m₁ ran
  have free : ∀ d ∈ decl.operations m.scopes.active m.origin,
      (m.equip .empty).isBuiltin d.name = false := fun _ _ => rfl
  have same := (declare_of_free free).symm.trans ran
  cases same
  refine ⟨_, ?_, rfl, fun free => ?_, fun taken => ?_⟩
  · cases decl with
    | struct s => exact List.cons_ne_nil _ _
    | union name variants =>
      simp [Declaration.entries, Declaration.operations, Declaration.predicates]
  · exact declare_of_free fun d member => free _ (List.mem_map_of_mem member)
  · obtain ⟨pair, member, taken⟩ := taken
    obtain ⟨d, inside, rfl⟩ := List.mem_map.1 member
    obtain ⟨name, failed⟩ := declare_of_taken (m := m) ⟨d, inside, taken⟩
    exact ⟨_, m, failed, rfl⟩

theorem defines_primitive {p : Primitive}
    (definition : p ∈ [.define, .function, .condFunction, .dataDef]) : Defines (primitive p) := by
  simp only [List.mem_cons, List.not_mem_nil, or_false] at definition
  rcases definition with rfl | rfl | rfl | rfl
  · exact (prepares_popAs.defines fun name => prepares_pop.defines fun v =>
      defines_define name v).plain
  · exact (prepares_popAs.defines fun _ => prepares_popSignature?.defines fun _ =>
      prepares_popAs.defines fun name => (prepares_close _ _ _).defines fun v =>
        defines_define name v).plain
  · exact ((prepares_popPairs _).defines fun _ => prepares_popSignature?.defines fun _ =>
      prepares_popAs.defines fun name => defines_get (fun _ _ => rfl) fun _ =>
        (prepares_close _ _ _).defines fun v => defines_define name v).plain
  · exact (prepares_pop.defines fun _ => prepares_popAs.defines fun _ =>
      (prepares_ofExcept _).defines defines_declare).plain

end Exec

/-- Programs are run on a machine with any builtins, one after another. At every moment the
outermost scope binds no name of a builtin. Another scope, in use or captured by a closure, does so
only if a closure has been called that has a parameter of that name, or if the host hands over a
closure that comes with it; the name under which closures find themselves apart. A definition that
would bind such a name is a conflict. -/
theorem builtin_bound_of_call {r : Registry} {maxFrames : Nat} {report : Option Report}
    {past : List Machine} {m : Machine}
    (history : ({ Machine.new r with maxFrames, report } : Machine).History past m) :
    (∀ name ∈ m.scopes.root.names, r.contains name = false) ∧
    (∀ scope, m.HoldsScope scope → ∀ name ∈ scope.names, r.contains name = true →
      name = Closure.selfName ∨ Called (m :: past) name ∨ r.Supplies name) ∧
    ∀ p ∈ [Primitive.define, .function, .condFunction, .dataDef],
      Exec.Defines (Exec.primitive p) := by
  have obeys := history.obeys
    (Machine.obeys_new (fun _ _ => Registry.obeys_reserving) trivial fun _ unknown => .inl unknown)
  refine ⟨fun name member => ?_, fun scope holds name member known => ?_, fun p definition => ?_⟩
  · have free := obeys.root name member
    rwa [Machine.isBuiltin, history.registry] at free
  · rcases obeys.names holds name member with free | allowed
    · cases known.symm.trans free
    · exact allowed
  · exact Exec.defines_primitive definition

namespace Machine

theorem History.pass {start m : Machine} {past : List Machine} (history : start.History past m)
    (calm : m.control = .none) (on : m.turn.1.bind Step.outcome? = none) :
    start.History (m :: past) m.turn.2 :=
  .moves history (.pass (awake_of_calm calm) (pass_of_calm calm) on)

theorem History.token {start m m' : Machine} {past : List Machine} {t : Token} {rest : List Token}
    (history : start.History past (m.load (t :: rest)))
    (ran : Exec.token t (m.load rest) = .ok () m') :
    start.History (m.load (t :: rest) :: past) { m' with checkpoints := m'.checkpoints + 1 } := by
  have awake : (m.load (t :: rest)).control ≠ .suspend := awake_of_calm rfl
  refine .moves history (.pass awake (s := some .checkpoint) ?_ rfl)
  rw [pass_of_calm rfl, turn_load]
  simp only [Bind.bind, EStateM.bind, ran]
  rfl

end Machine

/-- The program `f: ( dup ) { } fun 1 f`. -/
def parameterNamedDup : List Token :=
  [⟨.define "f", .none⟩, ⟨.opening .params, .none⟩, ⟨.name "dup", .none⟩,
    ⟨.closing .params, .none⟩, ⟨.opening .quote, .none⟩, ⟨.closing .quote, .none⟩,
    ⟨.name "fun", .none⟩, ⟨.int 1, .none⟩, ⟨.name "f", .none⟩]

/-- The program comes to a state in which the parameter is bound. -/
theorem exists_history_dup : ∃ past m,
    ({ Machine.new .standard with maxFrames := 8, report := none } : Machine).History past m ∧
      "dup" ∈ m.scopes.active.names := by
  let start : Machine := { Machine.new .standard with maxFrames := 8, report := none }
  let tokens := parameterNamedDup
  let signature : Signature := ⟨[⟨"dup", none⟩], none⟩
  let reading (values : List Value) (quotes params next read : Nat) : Machine :=
    { start with
      operands := ⟨.ofList values, []⟩, openQuotes := quotes, openParams := params, nextId := next
      checkpoints := read }
  let f : Value := .closure ⟨1, some "f", [], some signature, .empty⟩
  let defined : Machine :=
    { start with scopes := ⟨⟨[("f", f)]⟩, []⟩, nextId := 2, checkpoints := 7 }
  let dup : Value := .op (.builtin ⟨"dup", .primitive .dup⟩) .none
  have h₁ : start.History _ ((reading [.sym "f"] 0 0 0 1).load (tokens.drop 1)) :=
    (Machine.History.start.load tokens).pass rfl rfl
  have h₂ : start.History _
      ((reading [.marker .paramsOpen, .sym "f"] 0 1 0 2).load (tokens.drop 2)) := h₁.pass rfl rfl
  have h₃ : start.History _
      ((reading [dup, .marker .paramsOpen, .sym "f"] 0 1 0 3).load (tokens.drop 3)) :=
    h₂.pass rfl rfl
  have h₄ : start.History _
      ((reading [.signature signature, .sym "f"] 0 0 0 4).load (tokens.drop 4)) := h₃.pass rfl rfl
  have h₅ : start.History _
      ((reading [.marker .quoteOpen, .signature signature, .sym "f"] 1 0 0 5).load
        (tokens.drop 5)) := h₄.pass rfl rfl
  have h₆ : start.History _
      ((reading [.quote 0 [], .signature signature, .sym "f"] 0 0 1 6).load (tokens.drop 6)) :=
    h₅.pass rfl rfl
  have h₇ : start.History _ (defined.load (tokens.drop 7)) :=
    h₆.token ((Exec.token_of_builtin rfl rfl rfl).trans (Exec.invokeOperation_of_none rfl))
  have h₈ : start.History _ (({ defined with
      operands := Operands.empty.push (.int 1), checkpoints := 8 } : Machine).load
        (tokens.drop 8)) := h₇.pass rfl rfl
  exact ⟨_, _, h₈.pass rfl rfl, by decide⟩

/-- A call binds a parameter that has the name of a builtin; a definition does not. -/
theorem builtin_bound_of_call_dup :
    ∃ past m,
      ({ Machine.new .standard with maxFrames := 8, report := none } : Machine).History past m ∧
      "dup" ∈ m.scopes.active.names ∧ Called (m :: past) "dup" ∧
      ∃ text m₂, Exec.primitive .define ({ Machine.new .standard with
          operands := ⟨.ofList [.sym "dup", .int 5], []⟩ }) =
        .error (.error (.conflict text)) m₂ ∧ m₂.scopes = .empty := by
  obtain ⟨past, m, history, member⟩ := exists_history_dup
  obtain ⟨_, bound, defines⟩ := builtin_bound_of_call history
  refine ⟨past, m, history, member, ?_, ?_⟩
  · rcases bound _ .active "dup" member (by decide) with self | called | supplied
    · exact absurd self (by decide)
    · exact called
    · obtain ⟨own, b, v, w, known, member, _⟩ := supplied
      rw [Registry.parts_of_standard known] at member
      cases member
  · let defining : Machine :=
      { Machine.new .standard with operands := ⟨.ofList [.sym "dup", .int 5], []⟩ }
    obtain ⟨pairs, _, scopes, _, conflict⟩ :=
      defines .define List.mem_cons_self defining none _ rfl
    apply conflict
    have active : (⟨[("dup", .int 5)]⟩ : Scope) = Bindings.empty.insertAll pairs :=
      congrArg Scopes.active scopes
    have named : "dup" ∈ (Bindings.empty.insertAll pairs).names := by
      rw [← active]
      exact List.mem_cons_self
    rcases Bindings.mem_names_insertAll named with old | ⟨pair, inside, own⟩
    · cases old
    · refine ⟨pair, inside, ?_⟩
      rw [own]
      decide

/-- A machine whose host hands over a closure that has captured the name of a builtin. -/
def Machine.giving : Machine :=
  .new (Registry.standard.register "given"
    (.reply (.value (.closure ⟨0, none, [], none, ⟨[("dup", .int 1)]⟩⟩))))

/-- The names of builtins get into scopes in both ways. -/
theorem exists_builtin_bound :
    (∃ past m,
      ({ Machine.new .standard with maxFrames := 8, report := none } : Machine).History past m ∧
      Registry.standard.contains "dup" = true ∧ "dup" ∈ m.scopes.active.names) ∧
    ∃ past m c, Machine.giving.History past m ∧ Machine.giving.registry.contains "dup" = true ∧
      m.operands.toList = [.closure c] ∧ "dup" ∈ c.scope.names := by
  constructor
  · obtain ⟨past, m, history, member⟩ := exists_history_dup
    exact ⟨past, m, history, by decide, member⟩
  · have fresh : Machine.giving.History [] .giving := .start
    have taken := (fresh.load [⟨.name "given", .none⟩]).token
      ((Exec.token_of_builtin rfl rfl rfl).trans (Exec.invokeOperation_of_none rfl))
    exact ⟨_, _, _, taken, by decide, rfl, by decide⟩

end Catena
