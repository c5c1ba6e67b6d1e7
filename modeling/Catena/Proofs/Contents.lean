import Catena.Proofs.Settling

set_option autoImplicit false

/-!
What the values in a machine are made of. Running code makes new values of those that are there, so
a rule about markers, about the places of code and errors and about the names that scopes bind,
which all values obey, however deep inside others they are, is a rule that no operation breaks.
Parameters are the exception: a call binds whatever names its closure declares. A rule may also keep
operations to code and scopes, so that there are none among data; then nothing may be collected, as
what is collected is not run.
-/

namespace Catena

/-- A rule about values: which markers there are, which places code and errors come from, which
names scopes bind, and whether operations may lie among data. -/
structure Rule where
  marker : Marker → Prop
  /-- Errors may have no place. -/
  place : Option Origin → Prop
  name : String → Prop
  self : name Closure.selfName
  loose : Prop

/-! ### Parts -/

def Bindings.values (b : Scope) : List Value := b.entries.map Prod.snd

def Reply.parts : Reply Value → List Value
  | .value v => [v]
  | _ => []

def Future.parts : Future Value → List Value
  | .ready reply | .later _ reply => reply.parts
  | .never => []

def DataAction.parts : DataAction Value → List Value
  | .construct _ _ types | .set _ types | .update _ types => types.values
  | _ => []

def BuiltinAction.parts : BuiltinAction Value → List Value
  | .primitive _ => []
  | .reply r => r.parts
  | .await pending => pending.future.parts

def Operation.parts : Operation Value → List Value
  | .builtin b => b.action.parts
  | .data d => d.action.parts

/-- What a builtin answers lies among data. -/
def Operation.replies : Operation Value → List Value
  | .builtin b => b.action.parts
  | .data _ => []

/-- The values that a value is directly made of. -/
def Value.parts : Value → List Value
  | .array _ items => items
  | .quote _ code => code
  | .closure c => c.body ++ c.scope.values
  | .op o _ => o.parts
  | _ => []

/-- A value that another one is made of, however deep inside it is. -/
inductive Value.Inside : Value → Value → Prop
  | whole {v : Value} : Inside v v
  | part {w u v : Value} : Inside w u → u ∈ v.parts → Inside w v

def Source.parts : Source → List Value
  | .items values => values
  | _ => []

def pairParts (pairs : List (Value × Value)) : List Value :=
  pairs.flatMap fun pair => [pair.1, pair.2]

def Frame.parts : Frame → List Value
  | .program _ | .attempt _ => []
  | .body code | .loop code => code
  | .call c _ => [.closure c]
  | .iterate source _ _ code => source.parts ++ code
  | .condTest pairs => pairParts pairs
  | .condCheck action pairs => action :: pairParts pairs
  | .update items _ types _ => items ++ types.values

def Signal.parts : Signal → List Value
  | .tailCall target => [.closure target]
  | .await pending => pending.future.parts
  | _ => []

def Control.parts : Control → List Value
  | .tailCall target => [.closure target]
  | .throw e => [.error e]
  | _ => []

/-- The token that the next part of a step runs, if it runs one. -/
def Machine.upcoming (m : Machine) : List Token :=
  match m.control, m.frames.toList.head? with
  | .none, some (.program (t :: _)) => [t]
  | _, _ => []

/-- The names that a call of a closure binds. -/
def Closure.paramNames (c : Closure Value) : List String :=
  c.signature.elim [] fun signature => signature.params.map Param.name

/-- The outermost scope. -/
def Scopes.root (s : Scopes) : Scope := s.saved.getLast?.getD s.active

/-- The operators of the language hold no values. -/
theorem Registry.parts_of_standard {name : String} {b : Builtin Value}
    (known : Registry.standard.get? name = some b) : b.action.parts = [] := by
  have primitives : ∀ (all : List Primitive) (r : Registry),
      (∀ b, r.get? name = some b → b.action.parts = []) →
      ∀ b, (all.foldl (fun r p => r.register p.name (.primitive p)) r).get? name = some b →
        b.action.parts = [] := by
    intro all
    induction all with
    | nil => exact fun r known => known
    | cons p all ih =>
      intro r held
      apply ih
      intro b found
      change (Bindings.insert r p.name _).get? name = some b at found
      rw [Bindings.get?_insert] at found
      split at found
      · cases found
        rfl
      · exact held b found
  refine primitives Primitive.all .empty ?_ b known
  intro b none
  cases none

theorem Future.parts_of_wait {future : Future Value} {reply : Reply Value} {time : Nat}
    (waited : Patience.unlimited.wait future = .reply reply time) : future.parts = reply.parts := by
  cases future with
  | ready r =>
    cases waited
    rfl
  | later milliseconds r =>
    cases milliseconds with
    | zero =>
      cases waited
      rfl
    | succ n =>
      cases waited
      rfl
  | never => cases waited

/-! ### Values that obey a rule -/

def Value.isOp : Value → Bool
  | .op .. => true
  | _ => false

/-- The values are data, or operations may lie among data. -/
def Rule.Stores (R : Rule) (values : List Value) : Prop := ∀ v ∈ values, v.isOp = true → R.loose

/-- What a rule asks of a value itself. -/
def Rule.Allows (R : Rule) : Value → Prop
  | .marker k => R.marker k
  | .array _ items => R.Stores items
  | .op o origin => R.place (some origin) ∧ R.Stores o.replies
  | .ref _ origin => R.place (some origin)
  | .error e => R.place e.origin
  | .closure c => (∀ name ∈ c.scope.names, R.name name) ∧ ∀ name ∈ c.name, R.name name
  | _ => True

/-- The rule allows the markers that a token leaves, and its place. After an opening bracket tokens
are collected. -/
structure Rule.Reads (R : Rule) (t : Token) : Prop where
  place : R.place (some t.origin)
  opens : ∀ bracket, t.lexeme = .opening bracket →
    R.marker (Exec.openingMarker bracket) ∧ R.loose
  arrow : R.marker .arrow
  arrayClose : R.marker .arrayClose

/-- The rule allows a value and everything inside it. -/
def Value.Allowed (R : Rule) (v : Value) : Prop := ∀ w, w.Inside v → R.Allows w

abbrev AllAllowed (R : Rule) (values : List Value) : Prop := ∀ v ∈ values, v.Allowed R

/-- The rule allows a value among data. -/
structure Value.Obeys (R : Rule) (v : Value) : Prop where
  allowed : v.Allowed R
  stored : v.isOp = true → R.loose

abbrev AllObey (R : Rule) (values : List Value) : Prop := ∀ v ∈ values, v.Obeys R

def Operation.Obeys (R : Rule) : Operation Value → Prop
  | .builtin b => AllObey R b.action.parts
  | .data d => AllAllowed R d.action.parts

/-- What a value must be like to be run. An operation may come from any place. -/
def Value.Runnable (R : Rule) : Value → Prop
  | .op o _ => o.Obeys R
  | v => v.Allowed R

structure Bindings.Obeys (R : Rule) (scope : Scope) : Prop where
  values : AllAllowed R scope.values
  names : ∀ name ∈ scope.names, R.name name

/-- Loops, tests and updates go through data; the rest is code. -/
def Frame.Obeys (R : Rule) : Frame → Prop
  | .program _ | .attempt _ => True
  | .body code | .loop code => AllAllowed R code
  | .call c _ => (Value.closure c).Allowed R
  | .iterate source _ _ code => AllObey R source.parts ∧ AllAllowed R code
  | .condTest pairs => AllObey R (pairParts pairs)
  | .condCheck action pairs => action.Obeys R ∧ AllObey R (pairParts pairs)
  | .update items _ types _ => AllObey R items ∧ AllAllowed R types.values

structure Machine.Obeys (R : Rule) (m : Machine) : Prop where
  operands : AllObey R m.operands.items.toList
  active : m.scopes.active.Obeys R
  saved : ∀ s ∈ m.scopes.saved, s.Obeys R
  frames : ∀ f ∈ m.frames.toList, f.Obeys R
  control : AllObey R m.control.parts
  pending : ∀ a, m.pending = some a → AllObey R a.future.parts
  registry : ∀ name b, m.registry.get? name = some b → AllObey R b.action.parts
  place : R.place (some m.origin)
  /-- Names that no builtin has are free. -/
  free : ∀ name, m.isBuiltin name = false → R.name name
  /-- No call binds names in the outermost scope. -/
  root : ∀ name ∈ m.scopes.root.names, m.isBuiltin name = false
  /-- Operations that are collected lie among data. -/
  settled : m.isCollecting = true → R.loose

section

variable {R : Rule} {v w : Value} {items : List Value} {scope : Scope} {name : String}

theorem Value.Allowed.intro (own : R.Allows v) (parts : AllAllowed R v.parts) : v.Allowed R := by
  intro w inside
  cases inside with
  | whole => exact own
  | part deeper member => exact parts _ member w deeper

theorem Value.Allowed.own (allowed : v.Allowed R) : R.Allows v := allowed v .whole

theorem Value.Allowed.parts (allowed : v.Allowed R) : AllAllowed R v.parts :=
  fun _ member w inside => allowed w (.part inside member)

theorem Value.isOp_eq_false (other : ∀ o origin, v = .op o origin → False) : v.isOp = false := by
  cases v with
  | op o origin => exact (other o origin rfl).elim
  | _ => rfl

/-- Anything but an operation may lie among data. -/
theorem Value.Allowed.obeys (allowed : v.Allowed R) (data : v.isOp = false) : v.Obeys R :=
  ⟨allowed, fun op => by cases data.symm.trans op⟩

theorem AllObey.allowed (all : AllObey R items) : AllAllowed R items :=
  fun v member => (all v member).allowed

/-- Values that are made of nothing else. -/
theorem Value.Obeys.plain (own : R.Allows v) (alone : v.isPlain = true) : v.Obeys R := by
  cases v with
  | array id items => cases alone
  | quote id code => cases alone
  | closure c => cases alone
  | op o origin => cases alone
  | _ => exact Value.Allowed.obeys (.intro own (List.forall_mem_nil _)) rfl

theorem Value.Allowed.plain (own : R.Allows v) (alone : v.isPlain = true) : v.Allowed R :=
  (Value.Obeys.plain own alone).allowed

theorem Value.Obeys.array (all : AllObey R items) (id : Nat) : (Value.array id items).Obeys R :=
  Value.Allowed.obeys (.intro (fun v member => (all v member).stored) all.allowed) rfl

theorem Value.Obeys.quote (all : AllAllowed R items) (id : Nat) : (Value.quote id items).Obeys R :=
  Value.Allowed.obeys (.intro trivial all) rfl

theorem Value.Allowed.elements {id : Nat} (allowed : (Value.array id items).Allowed R) :
    AllObey R items :=
  fun v member => ⟨allowed.parts v member, allowed.own v member⟩

theorem Value.Allowed.builtin {b : Builtin Value} {origin : Origin} (place : R.place (some origin))
    (all : AllObey R b.action.parts) : (Value.op (.builtin b) origin).Allowed R :=
  .intro ⟨place, fun v member => (all v member).stored⟩ all.allowed

theorem Value.Allowed.data {d : DataOp Value} {origin : Origin} (place : R.place (some origin))
    (all : AllAllowed R d.action.parts) : (Value.op (.data d) origin).Allowed R :=
  .intro ⟨place, List.forall_mem_nil _⟩ all

theorem Value.Allowed.operation {o : Operation Value} {origin : Origin}
    (allowed : (Value.op o origin).Allowed R) : o.Obeys R := by
  cases o with
  | builtin b => exact fun v member => ⟨allowed.parts v member, allowed.own.2 v member⟩
  | data d => exact allowed.parts

theorem Value.Allowed.runnable (allowed : v.Allowed R) : v.Runnable R := by
  cases v with
  | op o origin => exact allowed.operation
  | _ => exact allowed

theorem Registry.obeys_of_standard {b : Builtin Value}
    (known : Registry.standard.get? name = some b) : AllObey R b.action.parts := by
  rw [Registry.parts_of_standard known]
  exact List.forall_mem_nil _

theorem Frame.Obeys.parts {f : Frame} (obeys : f.Obeys R) : AllAllowed R f.parts := by
  cases f with
  | program tokens => exact List.forall_mem_nil _
  | attempt height => exact List.forall_mem_nil _
  | body code => exact obeys
  | loop code => exact obeys
  | call c floor => exact List.forall_mem_singleton.2 obeys
  | iterate source index withIndex code =>
    exact List.forall_mem_append.2 ⟨obeys.1.allowed, obeys.2⟩
  | condTest pairs => exact AllObey.allowed obeys
  | condCheck action pairs => exact List.forall_mem_cons.2 ⟨obeys.1.allowed, obeys.2.allowed⟩
  | update items field types floor => exact List.forall_mem_append.2 ⟨obeys.1.allowed, obeys.2⟩

theorem Bindings.allowed_of_get? (all : AllAllowed R scope.values)
    (found : scope.get? name = some v) : v.Allowed R := by
  obtain ⟨entries⟩ := scope
  induction entries with
  | nil => cases found
  | cons entry entries ih =>
    obtain ⟨first, rest⟩ := List.forall_mem_cons.1 all
    simp only [Bindings.get?, Bindings.find?] at found
    split at found
    · cases found
      exact first
    · exact ih rest found

theorem Bindings.values_insert (all : AllAllowed R scope.values) (name : String)
    (own : v.Allowed R) : AllAllowed R (scope.insert name v).values := by
  obtain ⟨entries⟩ := scope
  induction entries with
  | nil => exact List.forall_mem_singleton.2 own
  | cons entry entries ih =>
    obtain ⟨first, rest⟩ := List.forall_mem_cons.1 all
    simp only [Bindings.insert, Bindings.values, Bindings.replace]
    split
    · exact List.forall_mem_cons.2 ⟨own, rest⟩
    · exact List.forall_mem_cons.2 ⟨first, ih rest⟩

theorem Bindings.values_insertAll {pairs : List (String × Value)} (all : AllAllowed R scope.values)
    (new : ∀ pair ∈ pairs, pair.2.Allowed R) : AllAllowed R (scope.insertAll pairs).values := by
  induction pairs generalizing scope with
  | nil => exact all
  | cons pair pairs ih =>
    obtain ⟨first, rest⟩ := List.forall_mem_cons.1 new
    exact ih (Bindings.values_insert all _ first) rest

theorem Bindings.mem_names_insert {other : String} (member : other ∈ (scope.insert name v).names) :
    other = name ∨ other ∈ scope.names := by
  obtain ⟨entries⟩ := scope
  induction entries with
  | nil => exact .inl (List.mem_singleton.1 member)
  | cons entry entries ih =>
    simp only [Bindings.insert, Bindings.names, Bindings.replace] at member
    split at member
    · rcases List.mem_cons.1 member with own | rest
      · exact .inl own
      · exact .inr (List.mem_cons_of_mem _ rest)
    · rcases List.mem_cons.1 member with first | rest
      · exact .inr (first ▸ List.mem_cons_self)
      · exact (ih rest).imp_right (List.mem_cons_of_mem _)

theorem Bindings.mem_names_insertAll {pairs : List (String × Value)}
    (member : name ∈ (scope.insertAll pairs).names) :
    name ∈ scope.names ∨ ∃ pair ∈ pairs, pair.1 = name := by
  induction pairs generalizing scope with
  | nil => exact .inl member
  | cons pair pairs ih =>
    rcases ih member with old | ⟨other, inside, same⟩
    · rcases Bindings.mem_names_insert old with rfl | old
      · exact .inr ⟨pair, List.mem_cons_self, rfl⟩
      · exact .inl old
    · exact .inr ⟨other, List.mem_cons_of_mem _ inside, same⟩

theorem Bindings.Obeys.insert (obeys : scope.Obeys R) (own : v.Allowed R) (allowed : R.name name) :
    (scope.insert name v).Obeys R where
  values := Bindings.values_insert obeys.values name own
  names other member := by
    rcases Bindings.mem_names_insert member with rfl | old
    · exact allowed
    · exact obeys.names other old

theorem Bindings.Obeys.insertAll {pairs : List (String × Value)} (obeys : scope.Obeys R)
    (new : ∀ pair ∈ pairs, pair.2.Allowed R) (allowed : ∀ pair ∈ pairs, R.name pair.1) :
    (scope.insertAll pairs).Obeys R where
  values := Bindings.values_insertAll obeys.values new
  names other member := by
    rcases Bindings.mem_names_insertAll member with old | ⟨pair, inside, rfl⟩
    · exact obeys.names other old
    · exact allowed pair inside

/-- A closure that obeys runs in a scope that does. -/
theorem Closure.obeys_activation {c : Closure Value} (allowed : (Value.closure c).Allowed R) :
    c.activation.Obeys R := by
  have captured : c.scope.Obeys R := ⟨(List.forall_mem_append.1 allowed.parts).2, allowed.own.1⟩
  have own := captured.insert allowed R.self
  unfold Closure.activation
  split
  · next name named => exact own.insert allowed (allowed.own.2 name named)
  · exact own

theorem Scopes.root_enter (s : Scopes) (scope : Scope) : (s.enter scope).root = s.root := by
  simp only [root, enter, List.getLast?_cons, Option.getD_some]

/-- Only a scope that has no other below it is the outermost one. -/
theorem Scopes.root_mk (active : Scope) (saved : List Scope) :
    (Scopes.mk active saved).root = if saved = [] then active else saved.getLast?.getD .empty := by
  cases saved with
  | nil => rfl
  | cons scope saved => simp [root, List.getLast?_cons]

/-- Definitions bind no name that a builtin has. -/
theorem Machine.Obeys.define {m : Machine} (obeys : m.Obeys R) (own : scope.Obeys R)
    (names : ∀ name ∈ scope.names, name ∈ m.scopes.active.names ∨ m.isBuiltin name = false) :
    { m with scopes := ⟨scope, m.scopes.saved⟩ }.Obeys R := by
  refine { obeys with active := own, root := fun name member => ?_ }
  have before := obeys.root name
  rw [Scopes.root_mk] at before
  rw [Scopes.root_mk] at member
  by_cases outermost : m.scopes.saved = []
  · rw [if_pos outermost] at member before
    exact (names name member).elim before id
  · rw [if_neg outermost] at member before
    exact before member

end

/-! ### Actions that keep to a rule -/

namespace Exec

variable {R : Rule} {α β : Type}

/-- However an action has ended, the machine obeys, and `Q` holds of what the action gives. -/
def Obeying (R : Rule) (Q : α → Prop) : EStateM.Result Signal Machine α → Prop
  | .ok a m => m.Obeys R ∧ Q a
  | .error signal m => m.Obeys R ∧ AllObey R signal.parts

/-- On a machine that obeys, the action gives something of which `Q` holds. -/
def Gives (R : Rule) (Q : α → Prop) (x : Exec α) : Prop :=
  ∀ m : Machine, m.Obeys R → Obeying R Q (x m)

abbrev Keeps (R : Rule) (x : Exec α) : Prop := Gives R (fun _ => True) x

theorem Gives.bind {Q : α → Prop} {S : β → Prop} {x : Exec α} {f : α → Exec β}
    (first : Gives R Q x) (next : ∀ a, Q a → Gives R S (f a)) : Gives R S (x >>= f) := by
  intro m obeys
  have ended := first m obeys
  simp only [Bind.bind, EStateM.bind]
  cases ran : x m with
  | error signal m' =>
    rw [ran] at ended
    exact ended
  | ok a m' =>
    rw [ran] at ended
    exact next a ended.2 m' ended.1

theorem gives_pure {Q : α → Prop} {a : α} (own : Q a) : Gives R Q (pure a : Exec α) :=
  fun _ obeys => ⟨obeys, own⟩

theorem gives_throw {Q : α → Prop} {signal : Signal} (own : AllObey R signal.parts) :
    Gives R Q (throw signal : Exec α) :=
  fun _ obeys => ⟨obeys, own⟩

theorem gives_fail {Q : α → Prop} (e : RuntimeError) : Gives R Q (fail e : Exec α) :=
  gives_throw (List.forall_mem_nil _)

theorem gives_get : Gives R (Machine.Obeys R) (get : Exec Machine) := fun _ obeys => ⟨obeys, obeys⟩

theorem gives_ofExcept {Q : α → Prop} {x : Except RuntimeError α} (own : ∀ a, x = .ok a → Q a) :
    Gives R Q (ofExcept x) := by
  cases x with
  | ok a => exact gives_pure (own a rfl)
  | error e => exact gives_fail e

theorem keeps_modify {f : Machine → Machine} (obeys : ∀ m : Machine, m.Obeys R → (f m).Obeys R) :
    Keeps R (modify f : Exec Unit) :=
  fun m before => ⟨obeys m before, trivial⟩

theorem keeps_push {v : Value} (own : v.Obeys R) : Keeps R (push v) :=
  keeps_modify fun _ obeys =>
    { obeys with operands := List.forall_mem_cons.2 ⟨own, obeys.operands⟩ }

theorem toList_of_pop {s rest : Operands} {v : Value} (popped : s.pop = .ok (v, rest)) :
    s.items.toList = v :: rest.items.toList := by
  unfold Operands.pop at popped
  split at popped
  · cases popped
  · split at popped
    · next top =>
      cases popped
      exact Stack.pop?_eq_some_iff.1 top
    · cases popped

theorem gives_pop : Gives R (Value.Obeys R) pop := by
  intro m obeys
  simp only [pop]
  cases popped : m.operands.pop with
  | error e => exact ⟨obeys, List.forall_mem_nil _⟩
  | ok found =>
    obtain ⟨v, rest⟩ := found
    have operands := obeys.operands
    rw [toList_of_pop popped] at operands
    obtain ⟨first, rest⟩ := List.forall_mem_cons.1 operands
    exact ⟨{ obeys with operands := rest }, first⟩

theorem gives_peek (offset : Nat) : Gives R (Value.Obeys R) (peek offset) := by
  refine gives_get.bind fun m obeys => gives_ofExcept fun v found => ?_
  unfold Operands.peek at found
  split at found
  · split at found
    · next item =>
      cases found
      exact obeys.operands _ (List.mem_of_getElem? item)
    · cases found
  · cases found

theorem gives_popAs {Q : α → Prop} {operator expected : String} {read? : Value → Option α}
    (own : ∀ v a, v.Obeys R → read? v = some a → Q a) :
    Gives R Q (popAs operator expected read?) := by
  refine gives_pop.bind fun v obeys => ?_
  cases read : read? v with
  | some a => exact gives_pure (own v a obeys read)
  | none => exact gives_fail _

theorem keeps_popAs {operator expected : String} {read? : Value → Option α} :
    Keeps R (popAs operator expected read?) :=
  gives_popAs fun _ _ _ _ => trivial

theorem gives_popBody (operator : String) : Gives R (AllAllowed R) (popBody operator) := by
  refine gives_popAs fun v code obeys read => ?_
  split at read
  · cases read
    exact obeys.allowed.parts
  · cases read

theorem gives_popCallable (operator : String) : Gives R (Value.Obeys R) (popCallable operator) := by
  refine gives_popAs fun v w obeys read => ?_
  split at read
  · cases read
    exact obeys
  · cases read

theorem keeps_fresh : Keeps R fresh := fun _ obeys => ⟨{ obeys with }, trivial⟩

theorem keeps_pushArray {items : List Value} (all : AllObey R items) : Keeps R (pushArray items) :=
  keeps_fresh.bind fun id _ => keeps_push (.array all id)

theorem keeps_change {f : Machine → Except RuntimeError Machine}
    (obeys : ∀ m m' : Machine, m.Obeys R → f m = .ok m' → m'.Obeys R) : Keeps R (change f) := by
  intro m before
  simp only [change]
  cases changed : f m with
  | ok m' => exact ⟨obeys m m' before changed, trivial⟩
  | error e => exact ⟨before, List.forall_mem_nil _⟩

theorem keeps_define {name : String} {v : Value} (own : R.name name → v.Allowed R) :
    Keeps R (define name v) :=
  keeps_change fun m m' obeys defined => by
    unfold Machine.define at defined
    split at defined
    · cases defined
    · next free =>
      cases defined
      have free := Bool.eq_false_iff.2 free
      have allowed := obeys.free name free
      refine obeys.define (obeys.active.insert (own allowed) allowed) fun other member => ?_
      rcases Bindings.mem_names_insert member with rfl | old
      · exact .inr free
      · exact .inl old

theorem keeps_forbid : Keeps R forbid := keeps_modify fun _ obeys => { obeys with }

theorem keeps_pushFrame {f : Frame} (own : f.Obeys R) : Keeps R (pushFrame f) := by
  intro m obeys
  simp only [pushFrame]
  split
  · exact ⟨obeys, List.forall_mem_nil _⟩
  · exact ⟨{ obeys with frames := List.forall_mem_cons.2 ⟨own, obeys.frames⟩ }, trivial⟩

/-- What an operation hands over obeys. -/
abbrev Hands (R : Rule) (x : Exec (Option Value)) : Prop :=
  Gives R (fun next => ∀ v, next = some v → v.Obeys R) x

theorem Gives.plain {x : Exec Unit} (keeps : Keeps R x) : Hands R (plain x) :=
  keeps.bind fun _ _ => gives_pure fun _ none => by cases none

end Exec

/-! ### Looser rules -/

/-- What the one rule allows, the other one does. -/
structure Rule.Stricter (R S : Rule) : Prop where
  marker : ∀ k, R.marker k → S.marker k
  place : ∀ origin, R.place origin → S.place origin
  name : ∀ name, R.name name → S.name name
  loose : R.loose → S.loose

section

variable {R S : Rule} {v w : Value} {m : Machine}

section

variable (stricter : R.Stricter S)
include stricter

theorem Rule.Stricter.stores {values : List Value} (stores : R.Stores values) : S.Stores values :=
  fun v member op => stricter.loose (stores v member op)

theorem Rule.Stricter.allows (allows : R.Allows v) : S.Allows v := by
  cases v with
  | marker k => exact stricter.marker k allows
  | array id items => exact stricter.stores allows
  | op o origin => exact ⟨stricter.place _ allows.1, stricter.stores allows.2⟩
  | ref name origin => exact stricter.place _ allows
  | error e => exact stricter.place _ allows
  | closure c =>
    exact ⟨fun name member => stricter.name name (allows.1 name member),
      fun name named => stricter.name name (allows.2 name named)⟩
  | _ => trivial

theorem Value.Allowed.mono (allowed : v.Allowed R) : v.Allowed S :=
  fun w inside => stricter.allows (allowed w inside)

theorem Value.Obeys.mono (obeys : v.Obeys R) : v.Obeys S :=
  ⟨obeys.allowed.mono stricter, fun op => stricter.loose (obeys.stored op)⟩

theorem AllAllowed.mono {values : List Value} (all : AllAllowed R values) : AllAllowed S values :=
  fun v member => (all v member).mono stricter

theorem AllObey.mono {values : List Value} (all : AllObey R values) : AllObey S values :=
  fun v member => (all v member).mono stricter

theorem Frame.Obeys.mono {f : Frame} (obeys : f.Obeys R) : f.Obeys S := by
  cases f with
  | program tokens => trivial
  | attempt height => trivial
  | body code => exact AllAllowed.mono stricter obeys
  | loop code => exact AllAllowed.mono stricter obeys
  | call c floor => exact Value.Allowed.mono stricter obeys
  | iterate source index withIndex code => exact ⟨obeys.1.mono stricter, obeys.2.mono stricter⟩
  | condTest pairs => exact AllObey.mono stricter obeys
  | condCheck action pairs => exact ⟨obeys.1.mono stricter, obeys.2.mono stricter⟩
  | update items field types floor => exact ⟨obeys.1.mono stricter, obeys.2.mono stricter⟩

theorem Bindings.Obeys.mono {scope : Scope} (obeys : scope.Obeys R) : scope.Obeys S :=
  ⟨obeys.values.mono stricter,
    fun name member => stricter.name name (obeys.names name member)⟩

theorem Machine.Obeys.mono (obeys : m.Obeys R) : m.Obeys S where
  operands := obeys.operands.mono stricter
  active := obeys.active.mono stricter
  saved s member := (obeys.saved s member).mono stricter
  frames f member := (obeys.frames f member).mono stricter
  control := obeys.control.mono stricter
  pending a waiting := (obeys.pending a waiting).mono stricter
  registry name b known := (obeys.registry name b known).mono stricter
  place := stricter.place _ obeys.place
  free name unknown := stricter.name name (obeys.free name unknown)
  root := obeys.root
  settled collecting := stricter.loose (obeys.settled collecting)

end

/-! ### What a machine holds -/

/-- All values in a machine, those of its builtins apart. -/
def Machine.values (m : Machine) : List Value :=
  m.operands.items.toList ++ m.scopes.active.values ++ m.scopes.saved.flatMap Bindings.values ++
    m.frames.toList.flatMap Frame.parts ++ m.control.parts ++
    m.pending.elim [] fun pending => pending.future.parts

def Machine.Holds (m : Machine) (v : Value) : Prop := ∃ w ∈ m.values, v.Inside w

theorem Machine.Obeys.values (obeys : m.Obeys R) : AllAllowed R m.values := by
  simp only [Machine.values, List.forall_mem_append]
  refine ⟨⟨⟨⟨⟨obeys.operands.allowed, obeys.active.values⟩, fun v member => ?_⟩,
    fun v member => ?_⟩, obeys.control.allowed⟩, ?_⟩
  · obtain ⟨s, saved, inside⟩ := List.mem_flatMap.1 member
    exact (obeys.saved s saved).values v inside
  · obtain ⟨f, frame, inside⟩ := List.mem_flatMap.1 member
    exact (obeys.frames f frame).parts v inside
  · cases waiting : m.pending with
    | none => exact List.forall_mem_nil _
    | some pending => exact (obeys.pending pending waiting).allowed

theorem Machine.Obeys.holds (obeys : m.Obeys R) (holds : m.Holds v) : R.Allows v := by
  obtain ⟨w, member, inside⟩ := holds
  exact obeys.values w member v inside

end

end Catena
