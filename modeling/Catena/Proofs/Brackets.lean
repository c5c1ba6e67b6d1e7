import Catena.Proofs.Attempt
import Catena.Proofs.Gathering
import Catena.Proofs.Keeping

set_option autoImplicit false

/-!
The discipline of brackets. A machine counts the quotations and the parameter lists that are open,
and while there is one it runs nothing. The counters know nothing of the order of the brackets, and
a marker on the stack may be swallowed by a bracket of another kind; but what has been swallowed is
missing ever after, and then the counters never come back to zero. So a program that is run to its
end has nested its brackets properly.
-/

namespace Catena

/-! ### Markers and counters -/

/-- The bracket that a marker stands for. -/
def Value.marks : Value → List Bracket
  | .marker .quoteOpen => [.quote]
  | .marker .paramsOpen => [.params]
  | _ => []

/-- No marker of an open container that collects. -/
def Rule.unmarked : Rule where
  marker k := k ≠ .quoteOpen ∧ k ≠ .paramsOpen
  place _ := True
  name _ := True
  self := trivial
  loose := True

theorem Rule.admits_unmarked (m : Machine) : Exec.Admits .unmarked m := fun _ _ _ _ _ => trivial

@[simp] theorem Value.marks_openingMarker (bracket : Bracket) :
    (Value.marker (Exec.openingMarker bracket)).marks = bracket.marks := by
  cases bracket <;> rfl

theorem Token.marks_content (r : Registry) (t : Token) : (t.content r).marks = t.lexeme.opened := by
  unfold Token.content
  cases lexeme : t.lexeme with
  | opening bracket => exact Value.marks_openingMarker bracket
  | name text =>
    simp only
    cases r.get? text <;> rfl
  | _ => rfl

theorem Contained.marks {id next : Nat} {values : List Value} {bracket : Bracket} {v : Value}
    (contained : Contained id values bracket v next) : v.marks = [] := by
  cases contained <;> rfl

theorem Value.Obeys.marks {v : Value} (obeys : v.Obeys .unmarked) : v.marks = [] := by
  unfold Value.marks
  split
  · exact absurd rfl obeys.allowed.own.1
  · exact absurd rfl obeys.allowed.own.2
  · rfl

theorem Contained.obeys {id next : Nat} {values : List Value} {bracket : Bracket} {v : Value}
    (contained : Contained id values bracket v next) (all : AllObey .unmarked values) :
    v.Obeys .unmarked := by
  cases contained with
  | array => exact .array all id
  | quote => exact .quote all.allowed id
  | params => exact .plain trivial rfl

theorem Value.obeys_marker {k : Marker} (quote : k ≠ .quoteOpen) (params : k ≠ .paramsOpen) :
    (Value.marker k).Obeys .unmarked :=
  .plain ⟨quote, params⟩ rfl

theorem Token.obeys_content {r : Registry} (t : Token)
    (registry : ∀ name b, r.get? name = some b → AllObey .unmarked b.action.parts)
    (free : t.lexeme.opened = []) : (t.content r).Obeys .unmarked := by
  unfold Token.content
  cases lexeme : t.lexeme with
  | opening bracket =>
    rw [lexeme] at free
    cases bracket with
    | array => exact Value.obeys_marker (by decide) (by decide)
    | quote => cases free
    | params => cases free
  | name text =>
    simp only
    cases known : r.get? text with
    | some b => exact ⟨.builtin trivial (registry text b known), fun _ => trivial⟩
    | none => exact .plain trivial rfl
  | arrow => exact Value.obeys_marker (by decide) (by decide)
  | closing bracket => exact Value.obeys_marker (by decide) (by decide)
  | _ => exact .plain trivial rfl

/-- A program holds no floor. -/
theorem Aligned.floors_of_program {m : Machine} {tokens : List Token} (aligned : Aligned m)
    (frames : m.frames.toList = [.program tokens]) : m.operands.floors = [] := by
  rw [aligned.floors, frames]
  rfl

namespace Machine

/-- How many containers of a kind have been counted. -/
def opened (m : Machine) : Bracket → Nat
  | .array => 0
  | .quote => m.openQuotes
  | .params => m.openParams

/-- The brackets that there are markers of, the topmost first. -/
def marks (m : Machine) : List Bracket := m.operands.items.toList.flatMap Value.marks

/-- There are no markers but those on the stack. -/
structure Clean (m : Machine) : Prop where
  apart : ({ m with operands := .empty } : Machine).Obeys .unmarked
  operands : ∀ v ∈ m.operands.items.toList, v.marks = [] → v.Obeys .unmarked

/-- What is left of the program is at the bottom, or the program has come to its end. -/
inductive Stands (m : Machine) : List Token → Prop
  | on {ahead} : m.frames.toList.getLast? = some (.program ahead) → Stands m ahead
  | ended : m.frames.toList = [] → m.control = .none → Stands m []

/-- The machine has read a part of the program. -/
structure Reads (seen ahead : List Token) (m : Machine) : Prop where
  stands : m.Stands ahead
  calm : m.isCollecting = true → m.control = .none
  counted : ∀ kind, (seen.flatMap fun t => t.lexeme.opened).count kind =
    m.opened kind + (seen.flatMap fun t => t.lexeme.closed).count kind
  /-- Markers have been counted, but some of those that were may have been swallowed. -/
  covered : ∀ kind, m.marks.count kind ≤ m.opened kind
  /-- If none has been, the markers tell what is open. -/
  tracked : (∀ kind, m.marks.count kind = m.opened kind) → Unclosed m.marks seen ∧ m.Clean

variable {m m' : Machine} {t : Token} {seen ahead rest : List Token} {bracket : Bracket}

theorem isCollecting_eq_false_iff : m.isCollecting = false ↔ ∀ kind, m.opened kind = 0 := by
  rw [isCollecting, Bool.or_eq_false_iff, decide_eq_false_iff_not, decide_eq_false_iff_not,
    Nat.not_lt, Nat.not_lt, Nat.le_zero, Nat.le_zero]
  constructor
  · rintro ⟨quotes, params⟩ kind
    cases kind with
    | array => rfl
    | quote => exact quotes
    | params => exact params
  · intro none
    exact ⟨none .quote, none .params⟩

theorem opened_counted_succ (m : Machine) (bracket kind : Bracket) :
    (m.counted bracket (· + 1)).opened kind = m.opened kind + bracket.marks.count kind := by
  cases bracket <;> cases kind <;> rfl

theorem opened_counted_pred (m : Machine) (bracket kind : Bracket) :
    (m.counted bracket (· - 1)).opened kind = m.opened kind - bracket.marks.count kind := by
  cases bracket <;> cases kind <;> rfl

theorem opened_entered (m : Machine) (t : Token) (kind : Bracket) :
    (m.entered t).opened kind = m.opened kind + t.lexeme.opened.count kind := by
  unfold entered
  split
  · next bracket lexeme =>
    rw [lexeme, Lexeme.opened_opening]
    exact m.opened_counted_succ bracket kind
  · next other =>
    have none : t.lexeme.opened = [] := by
      unfold Lexeme.opened
      split
      · next bracket lexeme => exact absurd lexeme (other bracket)
      · rfl
    rw [none]
    rfl

/-- Where none of the markers that are left is missing, those above them were none. -/
theorem eq_nil_of_covered {upper lower : List Bracket} {count : Bracket → Nat}
    (covered : ∀ kind, (upper ++ lower).count kind ≤ count kind)
    (level : ∀ kind, lower.count kind = count kind) : upper = [] := by
  apply List.eq_nil_iff_forall_not_mem.2
  intro kind member
  have present := List.count_pos_iff.2 member
  have bound := covered kind
  rw [List.count_append, level kind] at bound
  omega

theorem marks_of_pushes
    (items : m'.operands.items.toList = t.content m.registry :: m.operands.items.toList) :
    m'.marks = t.lexeme.opened ++ m.marks := by
  rw [Machine.marks, items, List.flatMap_cons, Token.marks_content, Machine.marks]

/-- A token that opens a container leaves a marker of it. -/
theorem level_of_pushes (marks : m'.marks = t.lexeme.opened ++ m.marks)
    (opened : ∀ kind, m'.opened kind = m.opened kind + t.lexeme.opened.count kind)
    (level : ∀ kind, m'.marks.count kind = m'.opened kind) (kind : Bracket) :
    m.marks.count kind = m.opened kind := by
  have after := level kind
  rw [marks, List.count_append, opened] at after
  omega

theorem marks_of_closes {values below : List Value} {value : Value} {next : Nat}
    (stack : m.operands.items.toList =
      values.reverse ++ .marker (Exec.openingMarker bracket) :: below)
    (contained : Contained m.nextId values bracket value next)
    (items : m'.operands.items.toList = value :: below) :
    m.marks = values.reverse.flatMap Value.marks ++ (bracket.marks ++ m'.marks) := by
  rw [Machine.marks, stack, List.flatMap_append, List.flatMap_cons, Value.marks_openingMarker,
    Machine.marks, items, List.flatMap_cons, contained.marks, List.nil_append]

/-- If nothing is missing after a container has been closed, there was no marker in it, and nothing
was missing before. -/
theorem level_of_closes {inner : List Bracket}
    (marks : m.marks = inner ++ (bracket.marks ++ m'.marks))
    (opened : ∀ kind, m'.opened kind = m.opened kind - bracket.marks.count kind)
    (covered : ∀ kind, m.marks.count kind ≤ m.opened kind)
    (level : ∀ kind, m'.marks.count kind = m'.opened kind) :
    inner = [] ∧ ∀ kind, m.marks.count kind = m.opened kind := by
  have none : inner = [] := by
    refine eq_nil_of_covered (fun kind => ?_) level
    have bound := covered kind
    rw [marks, List.count_append, List.count_append] at bound
    rw [List.count_append, opened]
    omega
  refine ⟨none, fun kind => ?_⟩
  have bound := covered kind
  have after := level kind
  rw [marks, none, List.nil_append, List.count_append] at bound ⊢
  rw [opened] at after
  omega

section

variable (gathers : m.Gathers t rest m')
include gathers

/-- Gathering a token changes operands and counters. -/
theorem Gathers.same :
    ∃ operands openQuotes openParams nextId, m' = { m with
      frames := Stack.empty.push (.program rest)
      origin := t.origin
      operands, openQuotes, openParams, nextId
      checkpoints := m.checkpoints + 1 } := by
  cases gathers with
  | pushes =>
    obtain ⟨openQuotes, openParams, same⟩ := m.entered_eq t
    rw [same]
    exact ⟨_, _, _, _, rfl⟩
  | @closes bracket =>
    obtain ⟨openQuotes, openParams, same⟩ := m.counted_eq bracket (· - 1)
    rw [same]
    exact ⟨_, _, _, _, rfl⟩

theorem Gathers.apart (apart : ({ m with operands := .empty } : Machine).Obeys .unmarked) :
    ({ m' with operands := .empty } : Machine).Obeys .unmarked := by
  obtain ⟨_, _, _, _, rfl⟩ := gathers.same
  exact { apart with
    frames := List.forall_mem_singleton.2 trivial
    place := trivial
    settled := fun _ => trivial }

theorem Gathers.control : m'.control = m.control := by
  obtain ⟨_, _, _, _, rfl⟩ := gathers.same
  rfl

theorem Gathers.stands : m'.Stands rest := by
  obtain ⟨_, _, _, _, rfl⟩ := gathers.same
  exact .on rfl

end

section

variable (reads : m.Reads seen (t :: rest)) (calm : m.control = .none)
  (gathers : m.Gathers t rest m')
include reads calm gathers

/-- A token that closes nothing. -/
theorem Reads.pushes (closes : t.lexeme.closed = [])
    (items : m'.operands.items.toList = t.content m.registry :: m.operands.items.toList)
    (opened : ∀ kind, m'.opened kind = m.opened kind + t.lexeme.opened.count kind) :
    m'.Reads (seen ++ [t]) rest := by
  have marks := marks_of_pushes items
  refine ⟨gathers.stands, fun _ => gathers.control.trans calm, ?_, ?_, ?_⟩
  · intro kind
    have before := reads.counted kind
    simp only [List.flatMap_append, List.flatMap_singleton, List.count_append, opened, closes,
      List.count_nil]
    omega
  · intro kind
    have before := reads.covered kind
    rw [marks, List.count_append, opened]
    omega
  · intro level
    obtain ⟨unclosed, clean⟩ := reads.tracked (level_of_pushes marks opened level)
    rw [marks]
    refine ⟨unclosed.opening closes, gathers.apart clean.apart, ?_⟩
    intro v member free
    rw [items] at member
    rcases List.mem_cons.1 member with rfl | lower
    · rw [Token.marks_content] at free
      exact t.obeys_content clean.apart.registry free
    · exact clean.operands v lower free

/-- A bracket that closes a container. If it is not the innermost one, markers are swallowed that
the counters know of. -/
theorem Reads.closes {values below : List Value} {value : Value} {next : Nat}
    (lexeme : t.lexeme = .closing bracket)
    (stack : m.operands.items.toList =
      values.reverse ++ .marker (Exec.openingMarker bracket) :: below)
    (contained : Contained m.nextId values bracket value next)
    (items : m'.operands.items.toList = value :: below)
    (opened : ∀ kind, m'.opened kind = m.opened kind - bracket.marks.count kind) :
    m'.Reads (seen ++ [t]) rest := by
  have marks := marks_of_closes stack contained items
  refine ⟨gathers.stands, fun _ => gathers.control.trans calm, ?_, ?_, ?_⟩
  · intro kind
    have counted := reads.counted kind
    have bound := reads.covered kind
    rw [marks, List.count_append, List.count_append] at bound
    simp only [List.flatMap_append, List.flatMap_singleton, List.count_append, opened, lexeme,
      Lexeme.opened_closing, Lexeme.closed_closing, List.count_nil]
    omega
  · intro kind
    have bound := reads.covered kind
    rw [marks, List.count_append, List.count_append] at bound
    rw [opened]
    omega
  · intro level
    obtain ⟨none, before⟩ := level_of_closes marks opened reads.covered level
    obtain ⟨unclosed, clean⟩ := reads.tracked before
    rw [marks, none, List.nil_append] at unclosed
    refine ⟨unclosed.closing lexeme, gathers.apart clean.apart, ?_⟩
    intro v member free
    rw [items] at member
    have operands := clean.operands
    rw [stack] at operands
    rcases List.mem_cons.1 member with rfl | lower
    · apply contained.obeys
      intro w inside
      have member := List.mem_reverse.2 inside
      exact operands w (List.mem_append_left _ member) (List.flatMap_eq_nil_iff.1 none w member)
    · exact operands v (List.mem_append_right _ (List.mem_cons_of_mem _ lower)) free

end

/-- A token that has been gathered has been read. -/
theorem Reads.gathers (reads : m.Reads seen (t :: rest)) (calm : m.control = .none)
    (gathers : m.Gathers t rest m') : m'.Reads (seen ++ [t]) rest := by
  have effect := gathers
  cases effect with
  | pushes none =>
    apply reads.pushes calm gathers (Token.closed_of_closes none) rfl
    intro kind
    rw [← m.opened_entered t kind]
    cases kind <;> rfl
  | @closes bracket values below value next items closes before free contained top =>
    apply reads.closes calm gathers (Token.closes_eq_some closes).1 before contained top
    intro kind
    rw [← m.opened_counted_pred bracket kind]
    cases kind <;> rfl

/-! ### Without an open container -/

/-- The machine has no container open. -/
structure Runs (seen ahead : List Token) (m : Machine) : Prop where
  stands : m.Stands ahead
  quiet : m.isCollecting = false
  obeys : m.Obeys .unmarked
  nested : Nested seen

theorem marks_eq_nil (quiet : m.isCollecting = false)
    (covered : ∀ kind, m.marks.count kind ≤ m.opened kind) : m.marks = [] := by
  apply List.eq_nil_iff_forall_not_mem.2
  intro kind member
  have present := List.count_pos_iff.2 member
  have bound := covered kind
  rw [isCollecting_eq_false_iff.1 quiet kind] at bound
  omega

theorem Reads.runs (reads : m.Reads seen ahead) (quiet : m.isCollecting = false) :
    m.Runs seen ahead := by
  have marks := marks_eq_nil quiet reads.covered
  have level : ∀ kind, m.marks.count kind = m.opened kind := by
    intro kind
    rw [marks, isCollecting_eq_false_iff.1 quiet kind]
    rfl
  obtain ⟨unclosed, clean⟩ := reads.tracked level
  have operands : AllObey .unmarked m.operands.items.toList := by
    intro v member
    exact clean.operands v member (List.flatMap_eq_nil_iff.1 marks v member)
  rw [marks] at unclosed
  cases unclosed with
  | nested nested => exact ⟨reads.stands, quiet, { clean.apart with operands := operands }, nested⟩

theorem Runs.reads (runs : m.Runs seen ahead) : m.Reads seen ahead := by
  have none := isCollecting_eq_false_iff.1 runs.quiet
  have marks : m.marks = [] :=
    List.flatMap_eq_nil_iff.2 fun v member => (runs.obeys.operands v member).marks
  refine ⟨runs.stands, fun collecting => ?_, fun kind => ?_, fun kind => ?_, fun _ => ?_⟩
  · cases runs.quiet.symm.trans collecting
  · rw [none, Nat.zero_add]
    exact runs.nested.count kind
  · rw [marks]
    exact Nat.zero_le _
  · rw [marks]
    refine ⟨.nested runs.nested, { runs.obeys with operands := List.forall_mem_nil _ }, ?_⟩
    exact fun v member _ => runs.obeys.operands v member

/-- Containers are open exactly if what has been read is not nested. -/
theorem Reads.isCollecting_iff (reads : m.Reads seen ahead) :
    m.isCollecting = true ↔ ¬ Nested seen := by
  rw [← Bool.not_eq_false, not_iff_not]
  constructor
  · intro quiet
    exact (reads.runs quiet).nested
  · intro nested
    apply isCollecting_eq_false_iff.2
    intro kind
    have counted := reads.counted kind
    rw [nested.count kind] at counted
    omega

/-- A part of a step that does not end the run. -/
theorem Grounds.runs {s : Option Step} (grounds : Grounds ahead (s, m'))
    (on : s.bind Step.outcome? = none) (obeys : m'.Obeys .unmarked) (nested : Nested seen) :
    m'.Runs seen ahead := by
  rcases grounds with ⟨e, failed⟩ | grounded
  · change s = _ at failed
    rw [failed] at on
    cases on
  · exact ⟨.on grounded.last, grounded.quiet, obeys, nested⟩

theorem grounded_resolve (quiet : m.isCollecting = false) (text : String) (origin : Origin) :
    (Exec.left (Exec.resolve text { m.load rest with origin })).Grounded rest := by
  obtain ⟨new, adds⟩ := (Exec.launches_resolve text { m.load rest with origin }).adds
  constructor
  · rw [adds.frames]
    exact last_above rfl
  · rw [isCollecting, adds.openQuotes, adds.openParams]
    exact quiet

/-- A name that runs. -/
theorem Runs.name (runs : m.Runs seen (t :: rest)) (calm : m.control = .none)
    (frames : m.frames.toList = [.program (t :: rest)]) {text : String}
    (lexeme : t.lexeme = .name text) {s : Option Step} (passed : m.pass = (s, m'))
    (on : s.bind Step.outcome? = none) : m'.Runs (seen ++ [t]) rest := by
  have after := runs.obeys.turn (Rule.admits_unmarked _) fun t' rest' head => by
    rw [frames] at head
    cases head
    refine ⟨trivial, fun bracket opens => ?_, ⟨by decide, by decide⟩, ⟨by decide, by decide⟩⟩
    cases lexeme.symm.trans opens
  rw [← pass_of_calm calm, passed] at after
  have ran : Exec.token t (m.load rest) =
      Exec.resolve text { m.load rest with origin := t.origin } := by
    simp only [Exec.token, lexeme]
    change (if (m.load rest).isCollecting then Exec.push _ else Exec.resolve text) _ = _
    have quiet : ¬ (m.load rest).isCollecting = true := Bool.eq_false_iff.1 runs.quiet
    rw [if_neg quiet]
  have plain : Nested [t] := by
    apply Nested.plain _ .nil
    rw [lexeme]
    rfl
  rw [pass_of_calm calm, eq_load calm frames, turn_load] at passed
  have grounds : Grounds rest (s, m') := by
    rw [← passed]
    apply Grounded.afterAdvance
    rw [Exec.left_thenPure, ran]
    exact grounded_resolve runs.quiet text t.origin
  exact grounds.runs on after (runs.nested.append plain)

section

variable (runs : m.Runs seen ahead) (grounded : m.Grounded ahead)
include runs grounded

/-- What runs above the program. -/
theorem Runs.above (calm : m.control = .none) {f : Frame} {below : Stack Frame}
    (top : m.frames.pop? = some (f, below)) (other : f.isProgram = false) {s : Option Step}
    (passed : m.pass = (s, m')) (on : s.bind Step.outcome? = none) : m'.Runs seen ahead := by
  have frames := Stack.pop?_eq_some_iff.1 top
  have turned : m.turn = Machine.afterAdvance (Exec.advance f below m) := by rw [turn, top]
  have after := runs.obeys.turn (Rule.admits_unmarked _) fun t rest head => by
    rw [frames] at head
    cases head
    cases other
  rw [← pass_of_calm calm, passed] at after
  rw [pass_of_calm calm, turned] at passed
  have grounds : Grounds ahead (s, m') := by
    rw [← passed]
    exact Grounded.afterAdvance (grounded.advance frames other)
  exact grounds.runs on after runs.nested

theorem Runs.heed {s : Option Step} (heeded : m.heed = (s, m')) (on : s.bind Step.outcome? = none) :
    m'.Runs seen ahead := by
  have grounds := grounded.heed
  have obeys := runs.obeys.heed (Rule.admits_unmarked _)
  rw [heeded] at grounds obeys
  exact grounds.runs on obeys runs.nested

theorem Runs.answer {reply : Reply Value} (own : AllObey .unmarked reply.parts) :
    (m.answer reply).Runs seen ahead := by
  have obeys := runs.obeys.answer own
  cases reply with
  | _ => exact ⟨.on grounded.last, grounded.quiet, obeys, runs.nested⟩

end

/-! ### Runs -/

theorem Reads.end (reads : m.Reads seen []) (calm : m.control = .none) :
    ({ m with frames := .empty } : Machine).Reads seen [] where
  stands := .ended rfl calm
  calm _ := calm
  counted := reads.counted
  covered := reads.covered
  tracked level := by
    obtain ⟨unclosed, clean⟩ := reads.tracked level
    exact ⟨unclosed, { clean.apart with frames := List.forall_mem_nil _ }, clean.operands⟩

theorem upcoming_of_control (control : m.control ≠ .none) : m.upcoming = [] := by
  unfold upcoming
  split
  · contradiction
  · rfl

theorem upcoming_of_other {f : Frame} {below : List Frame} (frames : m.frames.toList = f :: below)
    (other : f.isProgram = false) : m.upcoming = [] := by
  rw [upcoming, frames]
  cases f with
  | program _ => cases other
  | _ => cases m.control <;> rfl

/-- The program is at the top of the stack. -/
theorem Reads.program (reads : m.Reads seen ahead) (calm : m.control = .none)
    (floors : m.operands.floors = []) (frames : m.frames.toList = [.program ahead])
    {s : Option Step} (passed : m.pass = (s, m')) (on : s.bind Step.outcome? = none) :
    ∃ ahead', m.upcoming ++ ahead' = ahead ∧ m'.Reads (seen ++ m.upcoming) ahead' := by
  rw [upcoming, calm, frames]
  cases ahead with
  | nil =>
    rw [pass_of_end calm frames] at passed
    cases passed
    exact ⟨[], rfl, (List.append_nil seen).symm ▸ reads.end calm⟩
  | cons t rest =>
    refine ⟨rest, rfl, ?_⟩
    by_cases runs : (∃ text, t.lexeme = .name text) ∧ m.isCollecting = false
    · obtain ⟨⟨text, lexeme⟩, quiet⟩ := runs
      exact ((reads.runs quiet).name calm frames lexeme passed on).reads
    · have named : ∀ text, t.lexeme = .name text → m.isCollecting = true := by
        intro text lexeme
        apply Bool.of_not_eq_false
        exact fun quiet => runs ⟨⟨text, lexeme⟩, quiet⟩
      rcases gathers_or_fails calm floors frames named with
        ⟨m₁, passed', gathers⟩ | ⟨e, m₁, failed, _⟩
      · cases passed.symm.trans passed'
        exact reads.gathers calm gathers
      · cases passed.symm.trans failed
        cases on

theorem Reads.pass (reads : m.Reads seen ahead) (rooted : m.Rooted) (aligned : Aligned m)
    {s : Option Step} (passed : m.pass = (s, m')) (on : s.bind Step.outcome? = none) :
    ∃ ahead', m.upcoming ++ ahead' = ahead ∧ m'.Reads (seen ++ m.upcoming) ahead' := by
  by_cases calm : m.control = .none
  · cases reads.stands with
    | ended empty _ =>
      cases collecting : m.isCollecting with
      | true =>
        cases passed.symm.trans (pass_of_unclosed calm empty collecting)
        cases on
      | false =>
        cases passed.symm.trans (pass_of_done calm empty collecting)
        cases on
    | on last =>
      cases top : m.frames.pop? with
      | none =>
        rw [Stack.pop?_eq_none_iff.1 top] at last
        cases last
      | some popped =>
        obtain ⟨f, below⟩ := popped
        have frames := Stack.pop?_eq_some_iff.1 top
        cases kind : f.isProgram with
        | false =>
          -- Above the program no container is open.
          have quiet : m.isCollecting = false := by
            apply Bool.eq_false_iff.2
            intro collecting
            have alone := rooted.alone collecting f (by simp [frames])
            cases kind.symm.trans alone
          have runs := reads.runs quiet
          rw [upcoming_of_other frames kind, List.append_nil]
          exact ⟨ahead, rfl, (runs.above ⟨last, quiet⟩ calm top kind passed on).reads⟩
        | true =>
          cases f with
          | program tokens =>
            have alone := rooted.bottom [] tokens below.toList frames
            rw [alone] at frames
            rw [frames] at last
            cases last
            exact reads.program calm (aligned.floors_of_program frames) frames passed on
          | _ => cases kind
  · -- Tokens that are gathered leave nothing to heed.
    have quiet : m.isCollecting = false := Bool.eq_false_iff.2 fun open' => calm (reads.calm open')
    rw [pass_of_control calm] at passed
    rw [upcoming_of_control calm, List.append_nil]
    cases reads.stands with
    | ended _ control => exact absurd control calm
    | on last =>
      exact ⟨ahead, rfl, ((reads.runs quiet).heed ⟨last, quiet⟩ passed on).reads⟩

theorem Reads.moves (reads : m.Reads seen ahead) (rooted : m.Rooted) (aligned : Aligned m)
    (moves : m.Moves m') :
    ∃ ahead', m.upcoming ++ ahead' = ahead ∧ m'.Reads (seen ++ m.upcoming) ahead' := by
  have waits (asleep : m.control = .suspend) : m.upcoming = [] ∧ m.Grounded ahead := by
    have other : m.control ≠ .none := by simp [asleep]
    refine ⟨upcoming_of_control other, ?_⟩
    cases reads.stands with
    | ended _ control => exact absurd control other
    | on last =>
      exact ⟨last, Bool.eq_false_iff.2 fun collecting => other (reads.calm collecting)⟩
  cases moves with
  | pass _ passed on => exact reads.pass rooted aligned passed on
  | @answer pending reply time asleep waiting waited =>
    obtain ⟨none, grounded⟩ := waits asleep
    have runs := reads.runs grounded.quiet
    have own : AllObey .unmarked reply.parts := by
      have parts := runs.obeys.pending pending waiting
      rwa [Future.parts_of_wait waited] at parts
    rw [none, List.append_nil]
    exact ⟨ahead, rfl, (runs.answer grounded own).reads⟩
  | resume asleep free =>
    obtain ⟨none, grounded⟩ := waits asleep
    have runs := reads.runs grounded.quiet
    rw [resume_eq_answer free, none, List.append_nil]
    exact ⟨ahead, rfl, (runs.answer grounded (List.forall_mem_nil _)).reads⟩

/-- The machine has come here and has run these tokens on its way. -/
inductive Executes (start : Machine) : List Token → Machine → Prop
  | start : Executes start [] start
  | moves {seen : List Token} {m m' : Machine} :
      Executes start seen m → m.Moves m' → Executes start (seen ++ m.upcoming) m'

theorem Executes.reaches {start : Machine} (executes : start.Executes seen m) :
    start.Reaches m := by
  induction executes with
  | start => exact .refl
  | moves _ moves ih => exact ih.tail moves

theorem Reaches.executes {start : Machine} (reaches : start.Reaches m) :
    ∃ seen, start.Executes seen m := by
  induction reaches with
  | refl => exact ⟨[], .start⟩
  | tail _ moves ih =>
    obtain ⟨seen, executes⟩ := ih
    exact ⟨_, executes.moves moves⟩

theorem Reaches.sound {m₀ : Machine} {tokens : List Token} (idle : m₀.Idle)
    (reaches : (m₀.load tokens).Reaches m) : (Moment.running m).Sound ∧ m.Rooted := by
  have loaded : m₀.Loaded (m₀.load tokens) := .program tokens
  have started : (Moment.running (m₀.load tokens)).Sound := loaded.sound idle
  have way := Reaches.moments reaches
  exact ⟨Moment.Reaches.sound way started, Moment.Reaches.rooted way started (loaded.rooted idle)⟩

/-- At every point of a run a part of the program has been read. -/
theorem Executes.reads {m₀ : Machine} {tokens : List Token} (idle : m₀.Idle)
    (obeys : m₀.Obeys .unmarked) (executes : (m₀.load tokens).Executes seen m) :
    ∃ ahead, tokens = seen ++ ahead ∧ m.Reads seen ahead := by
  induction executes with
  | start =>
    have runs : (m₀.load tokens).Runs [] tokens := by
      refine ⟨.on rfl, ?_, obeys.load tokens, .nil⟩
      change m₀.isCollecting = false
      rw [isCollecting, idle.openQuotes, idle.openParams]
      rfl
    exact ⟨tokens, rfl, runs.reads⟩
  | moves before moves ih =>
    obtain ⟨ahead, rfl, reads⟩ := ih
    obtain ⟨sound, rooted⟩ := Reaches.sound idle before.reaches
    obtain ⟨ahead', rfl, reads'⟩ := reads.moves rooted sound.1 moves
    exact ⟨ahead', (List.append_assoc _ _ _).symm, reads'⟩

theorem Reaches.reads {m₀ m₁ : Machine} {tokens : List Token} (idle : m₀.Idle)
    (obeys : m₀.Obeys .unmarked) (reaches : (m₀.load tokens).Reaches m₁) :
    ∃ seen ahead, tokens = seen ++ ahead ∧ m₁.Reads seen ahead := by
  obtain ⟨seen, executes⟩ := reaches.executes
  exact ⟨seen, executes.reads idle obeys⟩

/-- While a container is open, the only frame is the program. -/
theorem Rooted.frames_of_collecting (rooted : m.Rooted) (collecting : m.isCollecting = true)
    (last : m.frames.toList.getLast? = some (.program ahead)) :
    m.frames.toList = [.program ahead] := by
  cases frames : m.frames.toList with
  | nil =>
    rw [frames] at last
    cases last
  | cons f below =>
    have program := rooted.alone collecting f (by simp [frames])
    cases f with
    | program tokens =>
      have alone := rooted.bottom [] tokens below frames
      subst alone
      rw [frames] at last
      cases last
      rfl
    | _ => cases program

theorem Reads.withholds (reads : m.Reads seen ahead) (rooted : m.Rooted) (aligned : Aligned m)
    (waiting : m.control = .suspend ∨ m.pending = none) (collecting : m.isCollecting = true) :
    m.Withholds ahead := by
  have calm := reads.calm collecting
  have steps {m₁ m' : Machine} {s : Step} (within : m.Within m₁)
      (passed : m₁.pass = (some s, m')) : m.step = (s, m') :=
    aligned.step_eq waiting within (m₁.act_result.trans passed)
  cases reads.stands with
  | ended empty _ =>
    exact .ends (.inr empty) (steps (.here m) (pass_of_unclosed calm empty collecting))
  | on last =>
    have frames := rooted.frames_of_collecting collecting last
    cases ahead with
    | nil =>
      apply Withholds.ends (.inl frames)
      have dropped : m.abort = ({ m with frames := .empty } : Machine).abort := by
        rw [abort, frames]
        rfl
      have next : m.Within { m with frames := .empty } :=
        .next (goes_of_pass (pass_of_end calm frames)) (.here _)
      rw [dropped]
      exact steps next (pass_of_unclosed calm rfl collecting)
    | cons t rest =>
      have floors := aligned.floors_of_program frames
      rcases gathers_or_fails calm floors frames fun _ _ => collecting with
        ⟨m', passed, gathers⟩ | ⟨e, m', passed, closes, scopes, kept⟩
      · exact .takes frames (steps (.here m) passed) gathers
      · exact .refuses frames closes (steps (.here m) passed) scopes kept

theorem Reads.nested_of_ends (reads : m.Reads seen ahead) (ends : m.Ends .completed m') :
    Nested (seen ++ ahead) := by
  cases ends with
  | @intro said _ _ awake passed completed =>
    cases said with
    | done =>
      obtain ⟨empty, _, quiet⟩ := done_of_pass passed
      have runs := reads.runs quiet
      cases runs.stands with
      | ended _ _ =>
        rw [List.append_nil]
        exact runs.nested
      | on last =>
        rw [empty] at last
        cases last
    | _ => cases completed

/-- A machine that knows the operators of the language and has not done anything. -/
def pristine (maxFrames : Nat) (report : Option Report) : Machine :=
  { Machine.new .standard with maxFrames, report }

theorem idle_pristine (maxFrames : Nat) (report : Option Report) :
    (pristine maxFrames report).Idle :=
  ⟨rfl, rfl, rfl, rfl, rfl, rfl⟩

theorem obeys_pristine (maxFrames : Nat) (report : Option Report) :
    (pristine maxFrames report).Obeys .unmarked :=
  obeys_new (fun _ _ => Registry.obeys_of_standard) trivial fun _ _ => trivial

end Machine

/-- At every point of a run a part of the program has been read and the rest is the frame at the
bottom. Containers are open exactly if what has been read is not nested; as long as they are, that
frame is the only one, and a step pushes a value, closes a container or fails. A program that is run
to its end is nested. -/
theorem brackets_disciplined (tokens : List Token) (maxFrames : Nat) (report : Option Report) :
    (∀ m, ((Machine.pristine maxFrames report).load tokens).Reaches m →
      ∃ seen ahead, tokens = seen ++ ahead ∧ m.Stands ahead ∧
        (m.isCollecting = true ↔ ¬ Nested seen) ∧
        (m.isCollecting = true → m.control = .none ∧ m.Withholds ahead) ∧
        ∀ m', m.step = (.done, m') → Nested tokens) ∧
      ∀ limit r, (Run.start (.pristine maxFrames report) tokens).finish .unlimited limit =
        (some .completed, r) → Nested tokens := by
  have idle := Machine.idle_pristine maxFrames report
  have ends {m m' : Machine} {k : Nat}
      (reaches : ((Machine.pristine maxFrames report).load tokens).Reaches m)
      (settles : m.SettlesIn k .completed m') : Nested tokens := by
    obtain ⟨m₁, further, ends⟩ := settles.exists_ends
    obtain ⟨seen, ahead, rfl, reads⟩ := Machine.Reaches.reads idle
      (Machine.obeys_pristine maxFrames report) (reaches.trans further)
    exact reads.nested_of_ends ends
  constructor
  · intro m reaches
    obtain ⟨seen, ahead, same, reads⟩ := Machine.Reaches.reads idle
      (Machine.obeys_pristine maxFrames report) reaches
    obtain ⟨sound, rooted⟩ := Machine.Reaches.sound idle reaches
    refine ⟨seen, ahead, same, reads.stands, reads.isCollecting_iff, fun collecting => ?_, ?_⟩
    · exact ⟨reads.calm collecting, reads.withholds rooted sound.1 sound.2 collecting⟩
    · intro m' done
      have awake : m.control ≠ .suspend := by
        intro asleep
        rw [Machine.step, asleep] at done
        cases done
      have comes := (sound.1.comes awake (sound.2.resolve_left awake)).1
      rw [done] at comes
      obtain ⟨k, settles⟩ := comes
      exact ends reaches settles
  · intro limit r finished
    obtain ⟨k, settles⟩ := Run.settlesIn_of_finishFrom (idle.opened tokens) finished
    exact ends .refl settles

/-- The program `{ ( x ) [ }`. -/
def quotedParameters : List Token :=
  [⟨.opening .quote, .none⟩, ⟨.opening .params, .none⟩, ⟨.name "x", .none⟩,
    ⟨.closing .params, .none⟩, ⟨.opening .array, .none⟩, ⟨.closing .quote, .none⟩]

/-- Inside both brackets the name is taken up and not run, and the program comes to its end. -/
theorem brackets_disciplined_quoted :
    (∃ m, ((Machine.pristine 8 none).load quotedParameters).Reaches m ∧ m.isCollecting = true ∧
      m.Withholds (quotedParameters.drop 2)) ∧
    (∃ limit r, (Run.start (.pristine 8 none) quotedParameters).finish .unlimited limit =
      (some .completed, r)) ∧ Nested quotedParameters := by
  obtain ⟨points, nested⟩ := brackets_disciplined quotedParameters 8 none
  let start := (Machine.pristine 8 none).load quotedParameters
  have inside : start.Reaches start.turn.2.turn.2 :=
    .tail (.single (.pass nofun rfl rfl)) (.pass nofun rfl rfl)
  let after : Machine := { Machine.pristine 8 none with
    operands := Operands.empty.push
      (.quote 0 [.signature ⟨[⟨"x", none⟩], none⟩, .marker .arrayOpen])
    nextId := 1
    checkpoints := 6 }
  have settles : start.SettlesIn 7 .completed after := by
    iterate 7 refine .more (.pass nofun rfl rfl) ?_
    exact .last ⟨nofun, rfl, rfl⟩
  have idle := Machine.idle_pristine 8 none
  obtain ⟨limit, r, finished, _⟩ := Run.finishFrom_of_settlesIn 0 (idle.opened _) settles
  refine ⟨⟨_, inside, rfl, ?_⟩, ⟨limit, r, finished⟩, nested limit r finished⟩
  obtain ⟨seen, ahead, _, stands, _, withholds, _⟩ := points _ inside
  cases stands with
  | ended empty _ => cases empty
  | on last =>
    cases last
    exact (withholds rfl).2

end Catena
