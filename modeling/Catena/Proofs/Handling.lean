import Catena.Proofs.Contents
import Catena.Proofs.Effects

set_option autoImplicit false

/-!
Operators keep to rules. What an operator leaves on the stack is made of what it has taken from
there, and the values of new declarations are made of what is in scope.
-/

namespace Catena.Exec

variable {R : Rule} {α β : Type}

/-! ### Operators -/

/-- Functions whose results are made of nothing else, or of the operands. -/
theorem keeps_unary {f : Value → Except RuntimeError Value}
    (own : ∀ v w, v.Obeys R → f v = .ok w → w.Obeys R) : Keeps R (unary f) :=
  gives_pop.bind fun v obeys => (gives_ofExcept fun w made => own v w obeys made).bind
    fun _ obeys => keeps_push obeys

theorem keeps_binary {f : Value → Value → Except RuntimeError Value}
    (own : ∀ a b w, a.Obeys R → b.Obeys R → f a b = .ok w → w.Obeys R) : Keeps R (binary f) :=
  gives_pop.bind fun b obeys => gives_pop.bind fun a obeys' =>
    (gives_ofExcept fun w made => own a b w obeys' obeys made).bind fun _ obeys => keeps_push obeys

theorem keeps_logical {p : Primitive} {f : Bool → Bool → Bool} : Keeps R (logical p f) :=
  keeps_popAs.bind fun _ _ => keeps_popAs.bind fun _ _ => keeps_push (.plain trivial rfl)

theorem keeps_swap : Keeps R swap :=
  gives_pop.bind fun _ b => gives_pop.bind fun _ a => (keeps_push b).bind fun _ _ => keeps_push a

theorem keeps_rot : Keeps R rot :=
  gives_pop.bind fun _ c => gives_pop.bind fun _ b => gives_pop.bind fun _ a =>
    (keeps_push b).bind fun _ _ => (keeps_push c).bind fun _ _ => keeps_push a

theorem keeps_clear : Keeps R clear := by
  refine keeps_modify fun m obeys => { obeys with operands := fun v member => ?_ }
  exact obeys.operands v (List.mem_of_mem_drop member)

theorem keeps_assertion (kind : AssertionKind) : Keeps R (assertion kind) :=
  gives_pop.bind fun _ _ => gives_pop.bind fun _ _ =>
    (gives_ofExcept fun _ _ => trivial).bind fun _ _ => keeps_modify fun _ obeys => { obeys with }

theorem hands_ifElse : Hands R ifElse := by
  have quotation (v w : Value) (obeys : v.Obeys R)
      (read : (if v.isQuotation then some v else none) = some w) : w.Obeys R := by
    split at read
    · cases read
      exact obeys
    · cases read
  have chosen {v : Value} (obeys : v.Obeys R) : ∀ w, some v = some w → w.Obeys R := by
    intro w same
    cases same
    exact obeys
  refine (gives_popAs quotation).bind fun first obeys => gives_get.bind fun _ _ => ?_
  split
  · refine gives_pop.bind fun _ obeys' => keeps_popAs.bind fun _ _ => ?_
    split
    · exact gives_pure (chosen obeys')
    · exact gives_pure (chosen obeys)
  · refine keeps_popAs.bind fun _ _ => ?_
    split
    · exact gives_pure (chosen obeys)
    · exact gives_pure fun _ none => by cases none

theorem obeys_pairUp {items : List Value} {pairs : List (Value × Value)} (all : AllObey R items)
    (read : pairUp items = .ok pairs) : AllObey R (pairParts pairs) := by
  fun_induction pairUp items generalizing pairs with
  | case1 => cases read
  | case2 => cases read
  | case3 test action rest _ _ more found ih =>
    cases read
    obtain ⟨first, all⟩ := List.forall_mem_cons.1 all
    obtain ⟨second, all⟩ := List.forall_mem_cons.1 all
    exact List.forall_mem_cons.2 ⟨first, List.forall_mem_cons.2 ⟨second, ih all found⟩⟩
  | case4 => cases read
  | case5 =>
    cases read
    exact List.forall_mem_nil _

theorem gives_popPairs (operator : String) :
    Gives R (fun found => found.1.Obeys R ∧ AllObey R (pairParts found.2)) (popPairs operator) := by
  refine gives_pop.bind fun v obeys => ?_
  split
  · refine (gives_ofExcept fun pairs read => ?_).bind fun pairs all => gives_pure ⟨obeys, all⟩
    unfold readPairs at read
    split at read
    · exact obeys_pairUp obeys.allowed.elements read
    · cases read
  · exact gives_fail _

theorem gives_popSource (operator : String) :
    Gives R (fun source => AllObey R source.parts) (popSource operator) := by
  refine gives_pop.bind fun v obeys => ?_
  split
  · exact keeps_popAs.bind fun _ _ => gives_pure (List.forall_mem_nil _)
  · exact gives_pure obeys.allowed.elements
  · exact gives_pure (List.forall_mem_nil _)
  · exact gives_fail _

theorem keeps_breakIf : Keeps R breakIf := by
  refine keeps_popAs.bind fun _ _ => ?_
  split
  · exact gives_throw (List.forall_mem_nil _)
  · exact gives_pure trivial

theorem keeps_tailCall : Keeps R tailCall := by
  refine gives_pop.bind fun v obeys => ?_
  split
  · exact gives_throw (List.forall_mem_singleton.2 obeys)
  · refine gives_get.bind fun m machine => ?_
    split
    · next found =>
      have target := (Bindings.allowed_of_get? machine.active.values found).obeys rfl
      exact gives_throw (List.forall_mem_singleton.2 target)
    · exact gives_fail _
    · exact gives_fail _
  · exact gives_fail _

theorem hands_attempt : Hands R attempt := by
  refine (gives_popCallable _).bind fun _ obeys => gives_get.bind fun m _ => ?_
  have guarded : (Frame.attempt m.operands.count).Obeys R := trivial
  refine (keeps_pushFrame guarded).bind fun _ _ => gives_pure fun _ same => ?_
  cases same
  exact obeys

theorem keeps_sleep : Keeps R sleep := by
  refine keeps_popAs.bind fun _ _ => ?_
  split
  · exact gives_fail _
  · exact gives_throw (List.forall_mem_nil _)

theorem keeps_popSignature? : Keeps R popSignature? := by
  refine gives_get.bind fun m _ => ?_
  split
  · exact gives_pop.bind fun _ _ => gives_pure trivial
  · exact gives_pure trivial

theorem gives_close {name : Option String} {body : List Value} {signature : Option Signature}
    (all : AllAllowed R body) :
    Gives R (fun v => (∀ own ∈ name, R.name own) → v.Obeys R) (close name body signature) := by
  refine keeps_fresh.bind fun _ _ => gives_get.bind fun _ machine => gives_pure fun names => ?_
  refine Value.Allowed.obeys (.intro ⟨machine.active.names, names⟩ ?_) rfl
  exact List.forall_mem_append.2 ⟨all, machine.active.values⟩

theorem keeps_define_close {name : String} {body : List Value} {signature : Option Signature}
    (all : AllAllowed R body) :
    Keeps R (do define name (← close (some name) body signature)) := by
  refine (gives_close all).bind fun _ obeys => keeps_define fun allowed => Value.Obeys.allowed ?_
  refine obeys fun own same => ?_
  cases same
  exact allowed

theorem keeps_function : Keeps R function :=
  (gives_popBody _).bind fun _ all => keeps_popSignature?.bind fun _ _ =>
    keeps_popAs.bind fun _ _ => keeps_define_close all

theorem keeps_lambda : Keeps R lambda :=
  (gives_popBody _).bind fun _ all => keeps_popSignature?.bind fun _ _ =>
    (gives_close all).bind fun _ obeys => keeps_push (obeys fun _ none => by cases none)

theorem keeps_condFunction : Keeps R condFunction := by
  refine (gives_popPairs _).bind fun found obeys => keeps_popSignature?.bind fun _ _ =>
    keeps_popAs.bind fun _ _ => gives_get.bind fun m machine => ?_
  have cond : (Value.op (.builtin ⟨Primitive.cond.name, .primitive .cond⟩) m.origin).Allowed R :=
    .builtin machine.place (List.forall_mem_nil _)
  exact keeps_define_close
    (List.forall_mem_cons.2 ⟨obeys.1.allowed, List.forall_mem_singleton.2 cond⟩)

/-- The operations that a declaration stands for know nothing but the scope and each other. -/
theorem allowed_operations {decl : Declaration} {active : Scope} {origin : Origin}
    (all : AllAllowed R active.values) (place : R.place (some origin)) :
    ∀ d ∈ decl.operations active origin, (Value.op (.data d) origin).Allowed R := by
  have predicates : ∀ d ∈ decl.predicates, (Value.op (.data d) origin).Allowed R := by
    intro d member
    have alone : d.action.parts = [] := by
      cases decl with
      | struct s =>
        cases List.mem_singleton.1 member
        rfl
      | union name variants =>
        rcases List.mem_append.1 member with inside | last
        · obtain ⟨s, _, rfl⟩ := List.mem_map.1 inside
          rfl
        · cases List.mem_singleton.1 last
          rfl
    refine .data place ?_
    rw [alone]
    exact List.forall_mem_nil _
  have types : AllAllowed R
      (active.insertAll (Declaration.entries origin decl.predicates)).values := by
    apply Bindings.values_insertAll all
    intro pair member
    obtain ⟨d, inside, rfl⟩ := List.mem_map.1 member
    exact predicates d inside
  intro d member
  rcases List.mem_append.1 member with inside | member
  · exact predicates d inside
  · obtain ⟨s, _, own⟩ := List.mem_flatMap.1 member
    rcases List.mem_cons.1 own with rfl | own
    · exact .data place types
    · obtain ⟨field, _, accessor⟩ := List.mem_flatMap.1 own
      simp only [Declaration.accessors, List.mem_cons, List.not_mem_nil, or_false] at accessor
      rcases accessor with rfl | rfl | rfl
      · exact .data place types
      · exact .data place types
      · exact .data place (List.forall_mem_nil _)

theorem keeps_dataDef : Keeps R dataDef := by
  refine gives_pop.bind fun _ _ => keeps_popAs.bind fun _ _ =>
    (gives_ofExcept fun _ _ => trivial).bind fun decl _ =>
      keeps_change fun m m' obeys declared => ?_
  simp only [Machine.declare] at declared
  split at declared
  · cases declared
  · next none =>
    cases declared
    have free : ∀ pair ∈ Declaration.entries m.origin (decl.operations m.scopes.active m.origin),
        m.isBuiltin pair.1 = false := by
      intro pair member
      obtain ⟨d, inside, rfl⟩ := List.mem_map.1 member
      exact Bool.eq_false_iff.2 (List.find?_eq_none.1 none d inside)
    apply obeys.define
    · apply obeys.active.insertAll
      · intro pair member
        obtain ⟨d, inside, rfl⟩ := List.mem_map.1 member
        exact allowed_operations obeys.active.values obeys.place d inside
      · intro pair member
        exact obeys.free _ (free pair member)
    · intro name member
      rcases Bindings.mem_names_insertAll member with old | ⟨pair, inside, rfl⟩
      · exact .inl old
      · exact .inr (free pair inside)

theorem obeys_nth {index : Int64} {v w : Value} (obeys : v.Obeys R) (found : v.nth index = .ok w) :
    w.Obeys R := by
  unfold Value.nth at found
  split at found
  · split at found
    · next item =>
      cases found
      unfold elementAt? at item
      split at item
      · cases item
      · exact obeys.allowed.elements _ (List.mem_of_getElem? item)
    · cases found
  · split at found
    · cases found
      exact .plain trivial rfl
    · cases found
  · cases found

theorem obeys_append {id : Nat} {a b w : Value} (first : a.Obeys R) (second : b.Obeys R)
    (made : Value.append id a b = .ok w) : w.Obeys R := by
  unfold Value.append at made
  split at made
  · cases made
    have more := List.forall_mem_singleton.2 second
    exact .array (List.forall_mem_append.2 ⟨first.allowed.elements, more⟩) id
  · cases made

theorem obeys_concat {id : Nat} {a b w : Value} (first : a.Obeys R) (second : b.Obeys R)
    (made : Value.concat id a b = .ok w) : w.Obeys R := by
  unfold Value.concat at made
  split at made
  · cases made
    have more := second.allowed.elements
    exact .array (List.forall_mem_append.2 ⟨first.allowed.elements, more⟩) id
  · cases made
    exact .plain trivial rfl
  · cases made

theorem obeys_map {x : Except RuntimeError α} {f : α → Value} {w : Value} (made : x.map f = .ok w)
    (own : ∀ a, (f a).Obeys R) : w.Obeys R := by
  cases x with
  | ok a =>
    cases made
    exact own a
  | error e => cases made

theorem obeys_arithmetic {op : ArithmeticOp} {a b w : Value} (made : op.apply a b = .ok w) :
    w.Obeys R := by
  unfold ArithmeticOp.apply at made
  split at made
  · exact obeys_map made fun _ => .plain trivial rfl
  · cases made
    exact .plain trivial rfl
  · cases made

theorem obeys_negate {v w : Value} (made : negate v = .ok w) : w.Obeys R := by
  unfold negate at made
  split at made
  · split at made
    · cases made
      exact .plain trivial rfl
    · cases made
  · cases made
    exact .plain trivial rfl
  · cases made

theorem obeys_length {v w : Value} (made : v.length = .ok w) : w.Obeys R := by
  unfold Value.length at made
  split at made
  all_goals cases made
  all_goals exact .plain trivial rfl

theorem obeys_errorMessage {v w : Value} (made : v.errorMessage = .ok w) : w.Obeys R := by
  unfold Value.errorMessage at made
  split at made
  · cases made
    exact .plain trivial rfl
  · cases made

theorem hands_primitive (p : Primitive) : Hands R (primitive p) := by
  have truth {b : Bool} {w : Value}
      (made : (.ok (.bool b) : Except RuntimeError Value) = .ok w) : w.Obeys R := by
    cases made
    exact .plain trivial rfl
  cases p with
  | ifElse => exact hands_ifElse
  | call =>
    exact (gives_popCallable _).bind fun _ obeys => gives_pure fun _ same => by
      cases same
      exact obeys
  | attempt => exact hands_attempt
  | cond => exact .plain ((gives_popPairs _).bind fun _ obeys => keeps_pushFrame obeys.2)
  | function => exact .plain keeps_function
  | lambda => exact .plain keeps_lambda
  | condFunction => exact .plain keeps_condFunction
  | loop => exact .plain ((gives_popBody _).bind fun _ all => keeps_pushFrame all)
  | iterate withIndex =>
    exact .plain ((gives_popBody _).bind fun _ all => (gives_popSource _).bind fun _ source =>
      keeps_pushFrame ⟨source, all⟩)
  | «break» => exact gives_throw (List.forall_mem_nil _)
  | breakIf => exact .plain keeps_breakIf
  | tailCall => exact .plain keeps_tailCall
  | define =>
    exact .plain (keeps_popAs.bind fun _ _ => gives_pop.bind fun _ obeys =>
      keeps_define fun _ => obeys.allowed)
  | dataDef => exact .plain keeps_dataDef
  | dup => exact .plain ((gives_peek 0).bind fun _ obeys => keeps_push obeys)
  | pop => exact .plain (gives_pop.bind fun _ _ => gives_pure trivial)
  | swap => exact .plain keeps_swap
  | copySecond => exact .plain ((gives_peek 1).bind fun _ obeys => keeps_push obeys)
  | rot => exact .plain keeps_rot
  | clear => exact .plain keeps_clear
  | depth => exact .plain (gives_get.bind fun _ _ => keeps_push (.plain trivial rfl))
  | arithmetic op => exact .plain (keeps_binary fun _ _ _ _ _ made => obeys_arithmetic made)
  | neg => exact .plain (keeps_unary fun _ _ _ made => obeys_negate made)
  | equal => exact .plain (keeps_binary fun _ _ _ _ _ made => truth made)
  | notEqual => exact .plain (keeps_binary fun _ _ _ _ _ made => truth made)
  | compare c =>
    exact .plain (keeps_binary fun _ _ _ _ _ made => obeys_map made fun _ => .plain trivial rfl)
  | not => exact .plain (keeps_popAs.bind fun _ _ => keeps_push (.plain trivial rfl))
  | and => exact .plain keeps_logical
  | or => exact .plain keeps_logical
  | append =>
    exact .plain (keeps_fresh.bind fun _ _ => keeps_binary fun _ _ _ first second made =>
      obeys_append first second made)
  | length => exact .plain (keeps_unary fun _ _ _ made => obeys_length made)
  | nth => exact .plain (keeps_popAs.bind fun _ _ => keeps_unary fun _ _ => obeys_nth)
  | concat =>
    exact .plain (keeps_fresh.bind fun _ _ => keeps_binary fun _ _ _ first second made =>
      obeys_concat first second made)
  | raise => exact .plain (keeps_popAs.bind fun _ _ => gives_fail _)
  | isError => exact .plain (keeps_unary fun _ _ _ made => truth made)
  | errorMessage => exact .plain (keeps_unary fun _ _ _ made => obeys_errorMessage made)
  | sleep => exact .plain keeps_sleep
  | assertion kind => exact .plain (keeps_assertion kind)

/-! ### Data declarations -/

theorem gives_popMany (wanted : Nat) : Gives R (AllObey R) (popMany wanted) := by
  induction wanted with
  | zero => exact gives_pure (List.forall_mem_nil _)
  | succ wanted ih =>
    exact gives_pop.bind fun _ own => ih.bind fun _ all =>
      gives_pure (List.forall_mem_append.2 ⟨all, List.forall_mem_singleton.2 own⟩)

theorem gives_takeArguments (wanted : Nat) : Gives R (AllObey R) (takeArguments wanted) := by
  refine gives_get.bind fun m _ => ?_
  by_cases few : m.operands.accessible < wanted
  · simp only [if_pos few]
    exact gives_fail _
  · simp only [if_neg few]
    exact gives_popMany wanted

theorem gives_collectInto {types : Scope} {params : List Param} {values : List Value}
    (all : AllObey R values) :
    Gives R (fun bound => AllObey R (bound.map Prod.snd)) (collectInto types params values) := by
  induction params generalizing values with
  | nil => exact gives_pure (List.forall_mem_nil _)
  | cons p params ih =>
    cases values with
    | nil => exact gives_pure (List.forall_mem_nil _)
    | cons v values =>
      obtain ⟨own, all⟩ := List.forall_mem_cons.1 all
      exact gives_get.bind fun _ _ => (gives_ofExcept fun _ _ => trivial).bind fun _ _ =>
        (ih all).bind fun _ rest => gives_pure (List.forall_mem_cons.2 ⟨own, rest⟩)

theorem keeps_checkField {field : Field} {types : Scope} {v : Value} :
    Keeps R (checkField field types v) := by
  unfold checkField
  split
  · exact gives_pure trivial
  · refine gives_get.bind fun _ _ => (gives_ofExcept fun _ _ => trivial).bind fun _ _ => ?_
    split
    · exact gives_pure trivial
    · exact gives_fail _

theorem keeps_writeField {items : List Value} {field : Field} {types : Scope} {v : Value}
    (all : AllObey R items) (own : v.Obeys R) : Keeps R (writeField items field types v) := by
  refine keeps_checkField.bind fun _ _ => keeps_pushArray fun w member => ?_
  rcases List.mem_or_eq_of_mem_set member with old | rfl
  · exact all w old
  · exact own

theorem gives_popInstance (operator : String) (field : Field) :
    Gives R (fun found => AllObey R found.1 ∧ found.2.Obeys R) (popInstance operator field) := by
  refine gives_popAs fun v found obeys read => ?_
  split at read
  · obtain ⟨current, item, rfl⟩ := Option.map_eq_some_iff.1 read
    have items := obeys.allowed.elements
    exact ⟨items, items _ (List.mem_of_getElem? item)⟩
  · cases read

theorem hands_dataOp {d : DataOp Value} (all : AllAllowed R d.action.parts) :
    Hands R (dataOp d) := by
  have symbol (text : String) : (Value.sym text).Obeys R := .plain trivial rfl
  obtain ⟨name, action⟩ := d
  cases action with
  | construct type fields types =>
    refine .plain (((gives_takeArguments _).bind fun _ => gives_collectInto).bind fun _ rest => ?_)
    exact keeps_pushArray
      (List.forall_mem_cons.2 ⟨symbol _, List.forall_mem_cons.2 ⟨symbol _, rest⟩⟩)
  | get field => exact .plain ((gives_popInstance _ _).bind fun _ found => keeps_push found.2)
  | set field types =>
    exact .plain (gives_pop.bind fun _ own => (gives_popInstance _ _).bind fun _ found =>
      keeps_writeField found.1 own)
  | update field types =>
    refine (gives_popCallable _).bind fun _ own => (gives_popInstance _ _).bind fun _ found =>
      gives_get.bind fun _ _ => (keeps_pushFrame ?_).bind fun _ _ => keeps_forbid.bind fun _ _ =>
        (keeps_push found.2).bind fun _ _ => gives_pure fun _ same => ?_
    · exact ⟨found.1, all⟩
    · cases same
      exact own
  | isInstance type =>
    refine .plain (keeps_unary fun _ _ _ made => ?_)
    cases made
    exact .plain trivial rfl
  | isVariant variants =>
    refine .plain (keeps_unary fun _ _ _ made => ?_)
    cases made
    exact .plain trivial rfl

theorem hands_operation {o : Operation Value} (all : o.Obeys R) :
    Hands R (operation o) := by
  cases o with
  | data d => exact hands_dataOp all
  | builtin b =>
    obtain ⟨name, action⟩ := b
    cases action with
    | primitive p => exact hands_primitive p
    | await pending => exact gives_throw all
    | reply r =>
      cases r with
      | value v => exact .plain (keeps_push (List.forall_mem_singleton.1 all))
      | nothing => exact .plain (gives_pure trivial)
      | failure e => exact .plain (gives_fail e)

/-! ### Arguments -/

/-- Some of the operands have been taken. -/
def Draws (m m' : Machine) : Prop :=
  ∃ operands, m' = { m with operands } ∧ operands.items.toList ⊆ m.operands.items.toList

/-- What comes of taking arguments: they were operands. -/
structure Taken (m : Machine) (x : EStateM.Result Signal Machine (List Value)) : Prop where
  draws : Draws m (left x)
  values : ∀ values m', x = .ok values m' → values ⊆ m.operands.items.toList
  error : ∀ signal m', x = .error signal m' → ∃ e, signal = .error e

theorem takes_fail (e : RuntimeError) (m : Machine) : Taken m (fail e m) where
  draws := ⟨m.operands, rfl, fun _ member => member⟩
  values _ _ failed := by cases failed
  error signal m' failed := by
    cases failed
    exact ⟨e, rfl⟩

theorem takes_popMany (wanted : Nat) (m : Machine) : Taken m (popMany wanted m) := by
  induction wanted generalizing m with
  | zero =>
    refine ⟨⟨m.operands, rfl, fun _ member => member⟩, fun values m' none => ?_, fun _ _ none => ?_⟩
    · cases none
      exact List.nil_subset _
    · cases none
  | succ wanted ih =>
    simp only [popMany, Bind.bind, EStateM.bind, pop]
    cases popped : m.operands.pop with
    | error e => exact takes_fail e m
    | ok found =>
      obtain ⟨v, rest⟩ := found
      have items := toList_of_pop popped
      have lower : rest.items.toList ⊆ m.operands.items.toList := by
        rw [items]
        exact List.subset_cons_self _ _
      obtain ⟨⟨operands, left, drawn⟩, values, error⟩ := ih { m with operands := rest }
      have drawn := List.Subset.trans drawn lower
      dsimp only
      cases ran : popMany wanted { m with operands := rest } with
      | error signal m' =>
        rw [ran] at left
        exact ⟨⟨operands, left, drawn⟩, fun _ _ same => (by cases same), fun _ _ same =>
          error _ _ (ran.trans same)⟩
      | ok below m' =>
        rw [ran] at left
        refine ⟨⟨operands, left, drawn⟩, fun taken _ same => ?_, fun _ _ same => (by cases same)⟩
        cases same
        apply List.append_subset.2 ⟨List.Subset.trans (values _ _ ran) lower, ?_⟩
        rw [items]
        exact List.cons_subset_cons v (List.nil_subset _)

theorem takes_takeArguments (wanted : Nat) (m : Machine) : Taken m (takeArguments wanted m) := by
  simp only [takeArguments, Bind.bind, EStateM.bind, get_apply]
  split
  · exact takes_fail _ m
  · exact takes_popMany wanted m

/-- What comes of binding arguments to `names` in the active scope of `m`, even if only some of them
fit. -/
structure Binds (names : List String) (values : List Value) (m : Machine)
    (x : EStateM.Result Signal Machine Unit) : Prop where
  binds : ∃ pairs : List (String × Value),
    left x = { m with scopes := ⟨m.scopes.active.insertAll pairs, m.scopes.saved⟩ } ∧
    ∀ pair ∈ pairs, pair.1 ∈ names ∧ pair.2 ∈ values
  error : ∀ signal m', x = .error signal m' → ∃ e, signal = .error e

theorem binds_bindInto (params : List Param) (values : List Value) (m : Machine) :
    Binds (params.map Param.name) values m (bindInto params values m) := by
  have nothing {names : List String} {values : List Value} {m : Machine} :
      Binds names values m (.ok () m) :=
    ⟨⟨[], rfl, List.forall_mem_nil _⟩, fun _ _ failed => by cases failed⟩
  induction params generalizing values m with
  | nil => exact nothing
  | cons p params ih =>
    cases values with
    | nil => exact nothing
    | cons v values =>
      cases checked : p.check m.scopes.active m.scopes.active v with
      | error e =>
        rw [bindInto_of_refused checked]
        refine ⟨⟨[], rfl, List.forall_mem_nil _⟩, fun signal m' failed => ?_⟩
        cases failed
        exact ⟨e, rfl⟩
      | ok fits =>
        rw [bindInto_of_accepted checked]
        obtain ⟨⟨pairs, left, new⟩, error⟩ := ih values { m with scopes := m.scopes.put p.name v }
        refine ⟨⟨(p.name, v) :: pairs, left, List.forall_mem_cons.2 ⟨?_, fun pair inside => ?_⟩⟩,
          error⟩
        · exact ⟨List.mem_cons_self, List.mem_cons_self⟩
        · obtain ⟨name, value⟩ := new pair inside
          exact ⟨List.mem_cons_of_mem _ name, List.mem_cons_of_mem _ value⟩

/-- The machine after a call has taken and bound what it could. -/
theorem binds_bindParameters (c : Closure Value) (m : Machine) :
    (∃ m₁, Draws m m₁ ∧
      Binds c.paramNames m.operands.items.toList m₁ (bindParameters c m)) := by
  unfold bindParameters Closure.paramNames
  cases c.signature with
  | none =>
    refine ⟨m, ⟨m.operands, rfl, fun _ member => member⟩, ⟨[], rfl, List.forall_mem_nil _⟩,
      fun _ _ failed => ?_⟩
    cases failed
  | some signature =>
    have takes := takes_takeArguments signature.arity m
    simp only [bind, Bind.bind, EStateM.bind]
    cases ran : takeArguments signature.arity m with
    | error signal m₁ =>
      rw [ran] at takes
      exact ⟨m₁, takes.draws, ⟨[], rfl, List.forall_mem_nil _⟩, fun _ _ same =>
        takes.error _ _ (by cases same; rfl)⟩
    | ok values m₁ =>
      rw [ran] at takes
      obtain ⟨⟨pairs, left, new⟩, error⟩ := binds_bindInto signature.params values m₁
      refine ⟨m₁, takes.draws, ⟨pairs, left, fun pair inside => ?_⟩, error⟩
      obtain ⟨name, value⟩ := new pair inside
      exact ⟨name, takes.values _ _ rfl value⟩

end Catena.Exec
