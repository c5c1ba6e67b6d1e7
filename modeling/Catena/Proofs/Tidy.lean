import Catena.Proofs.Brackets

set_option autoImplicit false

/-!
Operations are not data. Names stand for operations only where they are collected, that is inside
brackets. A quotation makes code of what it has collected, and a parameter list keeps nothing of it
but names; if another bracket gets hold of it first, a marker is swallowed and nothing is ever run
again. So as long as a program on a machine that knows nothing but the operators of the language is
running, no operation is on the stack or in an array.
-/

namespace Catena

/-- No operation lies among data. -/
def Rule.tidy : Rule where
  marker _ := True
  place _ := True
  name _ := True
  self := trivial
  loose := False

theorem Rule.admits_tidy (m : Machine) : Exec.Admits .tidy m := fun _ _ _ _ _ => trivial

/-! ### What is collected -/

/-- What may lie above the marker of the outermost container. -/
def Value.Files (v : Value) : Option Bracket → Prop
  | none => v.Obeys .tidy
  | some .quote => v.Allowed .tidy
  | some _ => True

def outermost? (values : List Value) : Option Bracket := (values.flatMap Value.marks).getLast?

/-- Values on the stack, the topmost first. -/
def Filed : List Value → Prop
  | [] => True
  | v :: below => v.Files (outermost? below) ∧ Filed below

section

variable {v : Value} {values upper lower : List Value} {kind : Bracket}

theorem outermost?_append (upper : List Value) (found : outermost? lower = some kind) :
    outermost? (upper ++ lower) = some kind := by
  rw [outermost?] at found
  rw [outermost?, List.flatMap_append, List.getLast?_append, found, Option.some_or]

theorem marks_of_outermost? (none : outermost? values = none) : values.flatMap Value.marks = [] :=
  List.getLast?_eq_none_iff.1 none

theorem Value.Obeys.files (obeys : v.Obeys .tidy) (container : Option Bracket) :
    v.Files container := by
  cases container with
  | none => exact obeys
  | some kind =>
    cases kind with
    | quote => exact obeys.allowed
    | _ => trivial

theorem Value.Obeys.isOp_eq_false (obeys : v.Obeys .tidy) : v.isOp = false :=
  Bool.eq_false_iff.2 obeys.stored

theorem Filed.of_obeys (all : AllObey .tidy values) : Filed values := by
  induction values with
  | nil => trivial
  | cons v values ih =>
    obtain ⟨own, rest⟩ := List.forall_mem_cons.1 all
    exact ⟨own.files _, ih rest⟩

theorem Filed.below (filed : Filed (upper ++ lower)) : Filed lower := by
  induction upper with
  | nil => exact filed
  | cons v upper ih => exact ih filed.2

theorem Filed.above (filed : Filed (upper ++ lower)) (found : outermost? lower = some kind) :
    ∀ v ∈ upper, v.Files (some kind) := by
  induction upper with
  | nil => exact List.forall_mem_nil _
  | cons v upper ih =>
    obtain ⟨own, rest⟩ : v.Files (outermost? (upper ++ lower)) ∧ Filed (upper ++ lower) := filed
    rw [outermost?_append upper found] at own
    exact List.forall_mem_cons.2 ⟨own, ih rest⟩

/-- Without an open container everything is data. -/
theorem Filed.obeys (filed : Filed values) (none : values.flatMap Value.marks = []) :
    AllObey .tidy values := by
  induction values with
  | nil => exact List.forall_mem_nil _
  | cons v values ih =>
    obtain ⟨own, rest⟩ := filed
    rw [List.flatMap_cons] at none
    obtain ⟨_, lower⟩ := List.append_eq_nil_iff.1 none
    rw [outermost?, lower] at own
    exact List.forall_mem_cons.2 ⟨own, ih rest lower⟩

end

/-- What a token leaves can be code. -/
theorem Token.allowed_content {r : Registry} (t : Token)
    (registry : ∀ name b, r.get? name = some b → AllObey .tidy b.action.parts) :
    (t.content r).Allowed .tidy := by
  unfold Token.content
  cases t.lexeme with
  | name text =>
    simp only
    cases known : r.get? text with
    | some b => exact .builtin trivial (registry text b known)
    | none => exact .plain trivial rfl
  | _ => exact .plain trivial rfl

/-- Only a name stands for an operation. -/
theorem Token.name_of_isOp {r : Registry} {t : Token} (op : (t.content r).isOp = true) :
    ∃ text, t.lexeme = .name text := by
  unfold Token.content at op
  cases lexeme : t.lexeme with
  | name text => exact ⟨text, rfl⟩
  | _ =>
    rw [lexeme] at op
    cases op

namespace Machine

/-- No marker has been swallowed. -/
def Whole (m : Machine) : Prop := ∀ kind, m.marks.count kind = m.opened kind

/-- Nothing but what is being collected can hold operations. -/
structure Tidy (m : Machine) : Prop where
  apart : ({ m with operands := .empty, openQuotes := 0, openParams := 0 } : Machine).Obeys .tidy
  filed : Filed m.operands.items.toList

variable {m m' : Machine} {t : Token} {seen ahead rest : List Token} {bracket : Bracket}

theorem Obeys.tidy (obeys : m.Obeys .tidy) : m.Tidy where
  apart := { obeys with
    operands := List.forall_mem_nil _
    settled := fun collecting => by cases collecting }
  filed := .of_obeys obeys.operands

theorem Tidy.obeys (tidy : m.Tidy) (quiet : m.isCollecting = false) (marks : m.marks = []) :
    m.Obeys .tidy :=
  { tidy.apart with
    operands := tidy.filed.obeys marks
    settled := fun collecting => by cases quiet.symm.trans collecting }

theorem Whole.quiet (whole : m.Whole) (marks : m.marks = []) : m.isCollecting = false := by
  apply isCollecting_eq_false_iff.2
  intro kind
  rw [← whole kind, marks]
  rfl

/-- A token that is pushed. -/
theorem Tidy.pushes (tidy : m.Tidy) (whole : m.Whole)
    (named : ∀ text, t.lexeme = .name text → m.isCollecting = true) :
    Filed (t.content m.registry :: m.operands.items.toList) := by
  refine ⟨?_, tidy.filed⟩
  have allowed := t.allowed_content tidy.apart.registry
  cases container : outermost? m.operands.items.toList with
  | none =>
    refine ⟨allowed, fun op => ?_⟩
    obtain ⟨text, lexeme⟩ := Token.name_of_isOp op
    cases (whole.quiet (marks_of_outermost? container)).symm.trans (named text lexeme)
  | some kind =>
    cases kind with
    | quote => exact allowed
    | _ => trivial

/-- A container that is closed. If it is an array, no quotation is open around it. -/
theorem Tidy.closes {values below : List Value} {value : Value} {next : Nat} (tidy : m.Tidy)
    (whole : m.Whole) (closes : t.closes m = some bracket)
    (stack : m.operands.items.toList =
      values.reverse ++ .marker (Exec.openingMarker bracket) :: below)
    (inner : values.reverse.flatMap Value.marks = [])
    (contained : Contained m.nextId values bracket value next) : Filed (value :: below) := by
  have filed := tidy.filed
  rw [stack] at filed
  refine ⟨?_, filed.below.2⟩
  have above {kind : Bracket} (found : outermost? (.marker (Exec.openingMarker bracket) :: below) =
      some kind) (v : Value) (member : v ∈ values) : v.Files (some kind) :=
    filed.above found v (List.mem_reverse.2 member)
  cases container : outermost? below with
  | some kind =>
    have found : outermost? (.marker (Exec.openingMarker bracket) :: below) = some kind :=
      outermost?_append [_] container
    cases kind with
    | quote =>
      cases contained with
      | array =>
        obtain ⟨_, waits⟩ := Token.closes_eq_some closes
        have member : .quote ∈ m.marks := by
          have last := outermost?_append values.reverse found
          rw [← stack] at last
          exact List.mem_of_getLast? last
        have open' : 0 < m.openQuotes := by
          rw [show m.openQuotes = m.opened .quote from rfl, ← whole]
          exact List.count_pos_iff.2 member
        exact absurd ⟨rfl, open'⟩ waits
      | quote => exact (Value.Obeys.quote (above found) _).allowed
      | params => exact .plain trivial rfl
    | _ => trivial
  | none =>
    have lower := marks_of_outermost? container
    cases contained with
    | array =>
      have marks : m.operands.items.toList.flatMap Value.marks = [] := by
        rw [stack, List.flatMap_append, List.flatMap_cons, inner, lower]
        rfl
      have all := tidy.filed.obeys marks
      rw [stack] at all
      refine Value.Obeys.array (fun v member => all v ?_) _
      exact List.mem_append_left _ (List.mem_reverse.2 member)
    | quote =>
      have found : outermost? (.marker .quoteOpen :: below) = some .quote := by
        rw [outermost?, List.flatMap_cons, lower]
        rfl
      exact .quote (above found) _
    | params => exact .plain trivial rfl

section

variable (gathers : m.Gathers t rest m')
include gathers

theorem Gathers.tidy_apart (tidy : m.Tidy) :
    ({ m' with operands := .empty, openQuotes := 0, openParams := 0 } : Machine).Obeys .tidy := by
  obtain ⟨_, _, _, _, rfl⟩ := gathers.same
  exact { tidy.apart with frames := List.forall_mem_singleton.2 trivial, place := trivial }

theorem Gathers.tidy_of_pushes
    (items : m'.operands.items.toList = t.content m.registry :: m.operands.items.toList)
    (opened : ∀ kind, m'.opened kind = m.opened kind + t.lexeme.opened.count kind)
    (named : ∀ text, t.lexeme = .name text → m.isCollecting = true) (tidy : m.Whole → m.Tidy)
    (whole : m'.Whole) : m'.Tidy := by
  have before : m.Whole := level_of_pushes (marks_of_pushes items) opened whole
  have tidy := tidy before
  refine ⟨gathers.tidy_apart tidy, ?_⟩
  rw [items]
  exact tidy.pushes before named

theorem Gathers.tidy_of_closes {values below : List Value} {value : Value} {next : Nat}
    (closes : t.closes m = some bracket)
    (stack : m.operands.items.toList =
      values.reverse ++ .marker (Exec.openingMarker bracket) :: below)
    (contained : Contained m.nextId values bracket value next)
    (items : m'.operands.items.toList = value :: below)
    (opened : ∀ kind, m'.opened kind = m.opened kind - bracket.marks.count kind)
    (covered : ∀ kind, m.marks.count kind ≤ m.opened kind) (tidy : m.Whole → m.Tidy)
    (whole : m'.Whole) : m'.Tidy := by
  have marks := marks_of_closes stack contained items
  obtain ⟨inner, before⟩ := level_of_closes marks opened covered whole
  have tidy := tidy before
  refine ⟨gathers.tidy_apart tidy, ?_⟩
  rw [items]
  exact tidy.closes before closes stack inner contained

/-- Gathering a token. -/
theorem Gathers.tidies (covered : ∀ kind, m.marks.count kind ≤ m.opened kind)
    (named : ∀ text, t.lexeme = .name text → m.isCollecting = true) (tidy : m.Whole → m.Tidy)
    (whole : m'.Whole) : m'.Tidy := by
  have effect := gathers
  cases effect with
  | pushes _ =>
    refine gathers.tidy_of_pushes rfl (fun kind => ?_) named tidy whole
    rw [← m.opened_entered t kind]
    cases kind <;> rfl
  | @closes bracket _ _ _ _ _ closes stack _ contained top =>
    refine gathers.tidy_of_closes closes stack contained top (fun kind => ?_) covered tidy whole
    rw [← m.opened_counted_pred bracket kind]
    cases kind <;> rfl

end

/-! ### Runs -/

theorem Moves.gathers (moves : m.Moves m') (calm : m.control = .none)
    (floors : m.operands.floors = []) (frames : m.frames.toList = [.program (t :: rest)])
    (named : ∀ text, t.lexeme = .name text → m.isCollecting = true) : m.Gathers t rest m' := by
  cases moves with
  | pass _ passed on =>
    rcases gathers_or_fails calm floors frames named with
      ⟨m₁, passed', gathers⟩ | ⟨e, m₁, failed, _⟩
    · cases passed.symm.trans passed'
      exact gathers
    · cases passed.symm.trans failed
      cases on
  | answer asleep => cases calm.symm.trans asleep
  | resume asleep => cases calm.symm.trans asleep

theorem Rooted.frames_of_upcoming (rooted : m.Rooted) (next : t ∈ m.upcoming) :
    m.control = .none ∧ ∃ rest, m.frames.toList = [.program (t :: rest)] := by
  unfold upcoming at next
  split at next
  · next calm head =>
    obtain rfl := List.mem_singleton.1 next
    obtain ⟨below, frames⟩ := List.head?_eq_some_iff.1 head
    have alone := rooted.bottom [] _ below frames
    rw [alone] at frames
    exact ⟨calm, _, frames⟩
  · cases next

theorem Reads.tidies (reads : m.Reads seen ahead) (rooted : m.Rooted) (aligned : Aligned m)
    (tidy : m.Whole → m.Tidy) (moves : m.Moves m') (whole : m'.Whole) : m'.Tidy := by
  cases collecting : m.isCollecting with
  | false =>
    have marks := marks_eq_nil collecting reads.covered
    have obeys : m.Obeys .tidy := by
      refine (tidy fun kind => ?_).obeys collecting marks
      rw [marks, isCollecting_eq_false_iff.1 collecting kind]
      rfl
    -- The rule does not reach beyond an opening bracket, since tokens are collected after it.
    by_cases opens : ∃ t ∈ m.upcoming, ∃ bracket, t.lexeme = .opening bracket
    · obtain ⟨t, next, bracket, lexeme⟩ := opens
      obtain ⟨calm, rest, frames⟩ := rooted.frames_of_upcoming next
      have named (text : String) (name : t.lexeme = .name text) : m.isCollecting = true := by
        cases lexeme.symm.trans name
      have gathers := moves.gathers calm (aligned.floors_of_program frames) frames named
      exact gathers.tidies reads.covered named tidy whole
    · refine (obeys.moves moves (Rule.admits_tidy _) fun t next => ?_).tidy
      exact ⟨trivial, fun bracket lexeme => (opens ⟨t, next, bracket, lexeme⟩).elim, trivial,
        trivial⟩
  | true =>
    have calm := reads.calm collecting
    cases reads.stands with
    | ended empty _ =>
      cases moves with
      | pass _ passed on =>
        cases passed.symm.trans (pass_of_unclosed calm empty collecting)
        cases on
      | answer asleep => cases calm.symm.trans asleep
      | resume asleep => cases calm.symm.trans asleep
    | on last =>
      have frames := rooted.frames_of_collecting collecting last
      cases ahead with
      | nil =>
        cases moves with
        | pass _ passed on =>
          cases passed.symm.trans (pass_of_end calm frames)
          have before := tidy whole
          exact ⟨{ before.apart with frames := List.forall_mem_nil _ }, before.filed⟩
        | answer asleep => cases calm.symm.trans asleep
        | resume asleep => cases calm.symm.trans asleep
      | cons t rest =>
        have named (text : String) (_ : t.lexeme = .name text) := collecting
        have gathers := moves.gathers calm (aligned.floors_of_program frames) frames named
        exact gathers.tidies reads.covered named tidy whole

/-- In a run on a machine that has not done anything, no operation lies among data unless a
container is open. -/
theorem Reaches.obeys_tidy {tokens : List Token} {maxFrames : Nat} {report : Option Report}
    (reaches : ((pristine maxFrames report).load tokens).Reaches m)
    (quiet : m.isCollecting = false) : m.Obeys .tidy := by
  have idle := idle_pristine maxFrames report
  have fresh := obeys_pristine maxFrames report
  have tidy : m.Whole → m.Tidy := by
    clear quiet
    induction reaches with
    | refl =>
      have start : (pristine maxFrames report).Obeys .tidy :=
        obeys_new (fun _ _ => Registry.obeys_of_standard) trivial fun _ _ => trivial
      exact fun _ => (start.load tokens).tidy
    | tail before moves ih =>
      obtain ⟨seen, ahead, _, reads⟩ := Reaches.reads idle fresh before
      obtain ⟨sound, rooted⟩ := Reaches.sound idle before
      exact reads.tidies rooted sound.1 ih moves
  obtain ⟨seen, ahead, _, reads⟩ := Reaches.reads idle fresh reaches
  have marks := marks_eq_nil quiet reads.covered
  refine (tidy fun kind => ?_).obeys quiet marks
  rw [marks, isCollecting_eq_false_iff.1 quiet kind]
  rfl

end Machine

end Catena
