import Catena.Proofs.Collecting
import Catena.Proofs.Removal
import Mathlib.Data.List.TakeWhile

set_option autoImplicit false

/-!
How tokens are gathered. The brackets of quotations and parameter lists are nested or they are not,
and a part of a program leaves some of them open. A token that does not run leaves a value, or it is
a closing bracket and puts one value in the place of everything from the topmost marker of its kind
on, if there is one.
-/

namespace Catena

/-! ### Nesting -/

/-- Quotations and parameter lists are nested properly. Square brackets do not count. -/
inductive Nested : List Token → Prop
  | nil : Nested []
  | plain {t rest} : t.lexeme.delimits = false → Nested rest → Nested (t :: rest)
  | group {bracket opening closing inner rest} : bracket ≠ .array →
      opening.lexeme = .opening bracket → closing.lexeme = .closing bracket → Nested inner →
      Nested rest → Nested (opening :: (inner ++ closing :: rest))

/-- The tokens leave these brackets open, the innermost first. -/
inductive Unclosed : List Bracket → List Token → Prop
  | nested {seen} : Nested seen → Unclosed [] seen
  | within {bracket outer before opening inner} : Unclosed outer before → bracket ≠ .array →
      opening.lexeme = .opening bracket → Nested inner →
      Unclosed (bracket :: outer) (before ++ opening :: inner)

/-- A bracket, if it is one that collects. -/
def Bracket.marks : Bracket → List Bracket
  | .array => []
  | bracket => [bracket]

def Lexeme.opened : Lexeme → List Bracket
  | .opening bracket => bracket.marks
  | _ => []

def Lexeme.closed : Lexeme → List Bracket
  | .closing bracket => bracket.marks
  | _ => []

@[simp] theorem Lexeme.opened_opening (bracket : Bracket) :
    (Lexeme.opening bracket).opened = bracket.marks := rfl

@[simp] theorem Lexeme.opened_closing (bracket : Bracket) :
    (Lexeme.closing bracket).opened = [] := rfl

@[simp] theorem Lexeme.closed_opening (bracket : Bracket) :
    (Lexeme.opening bracket).closed = [] := rfl

@[simp] theorem Lexeme.closed_closing (bracket : Bracket) :
    (Lexeme.closing bracket).closed = bracket.marks := rfl

theorem Bracket.marks_of_ne {bracket : Bracket} (other : bracket ≠ .array) :
    bracket.marks = [bracket] := by
  cases bracket with
  | array => contradiction
  | quote => rfl
  | params => rfl

theorem Lexeme.marks_of_not_delimits {l : Lexeme} (free : l.delimits = false) :
    l.opened = [] ∧ l.closed = [] := by
  cases l with
  | opening bracket => cases bracket <;> first | exact ⟨rfl, rfl⟩ | cases free
  | closing bracket => cases bracket <;> first | exact ⟨rfl, rfl⟩ | cases free
  | _ => exact ⟨rfl, rfl⟩

section

variable {a b seen : List Token} {t : Token} {bracket : Bracket} {outer : List Bracket}

theorem Nested.append (first : Nested a) (second : Nested b) : Nested (a ++ b) := by
  induction first with
  | nil => exact second
  | plain free _ ih => exact .plain free ih
  | @group bracket opening closing inner rest kind opens closes inside _ _ ih =>
    rw [List.cons_append, List.append_assoc, List.cons_append]
    exact .group kind opens closes inside ih

/-- As many brackets of each kind are opened as are closed. -/
theorem Nested.count (nested : Nested a) (kind : Bracket) :
    (a.flatMap fun t => t.lexeme.opened).count kind =
      (a.flatMap fun t => t.lexeme.closed).count kind := by
  induction nested with
  | nil => rfl
  | plain free _ ih =>
    obtain ⟨opened, closed⟩ := Lexeme.marks_of_not_delimits free
    rw [List.flatMap_cons, List.flatMap_cons, opened, closed]
    exact ih
  | @group bracket opening closing inner rest other opens closes _ _ inside ih =>
    simp only [List.flatMap_cons, List.flatMap_append, List.count_append, opens, closes,
      Lexeme.opened_opening, Lexeme.opened_closing, Lexeme.closed_opening, Lexeme.closed_closing,
      List.count_nil]
    omega

theorem Unclosed.append (unclosed : Unclosed outer seen) (more : Nested b) :
    Unclosed outer (seen ++ b) := by
  cases unclosed with
  | nested nested => exact .nested (nested.append more)
  | within before kind opens inside =>
    rw [List.append_assoc, List.cons_append]
    exact .within before kind opens (inside.append more)

/-- A token that closes nothing. -/
theorem Unclosed.opening (unclosed : Unclosed outer seen) (closes : t.lexeme.closed = []) :
    Unclosed (t.lexeme.opened ++ outer) (seen ++ [t]) := by
  by_cases delimits : t.lexeme.delimits = false
  · rw [(Lexeme.marks_of_not_delimits delimits).1]
    exact unclosed.append (.plain delimits .nil)
  · cases lexeme : t.lexeme with
    | opening bracket =>
      by_cases kind : bracket = .array
      · rw [lexeme, kind] at delimits
        exact absurd rfl delimits
      · rw [Lexeme.opened_opening, Bracket.marks_of_ne kind]
        exact .within unclosed kind lexeme .nil
    | closing bracket =>
      rw [lexeme] at closes delimits
      cases bracket with
      | array => exact absurd rfl delimits
      | quote => cases closes
      | params => cases closes
    | _ =>
      rw [lexeme] at delimits
      exact absurd rfl delimits

/-- A bracket that closes the innermost container. -/
theorem Unclosed.closing (unclosed : Unclosed (bracket.marks ++ outer) seen)
    (closes : t.lexeme = .closing bracket) : Unclosed outer (seen ++ [t]) := by
  by_cases kind : bracket = .array
  · subst kind
    apply Unclosed.append unclosed
    apply Nested.plain _ .nil
    rw [closes]
    rfl
  · rw [Bracket.marks_of_ne kind] at unclosed
    cases unclosed with
    | within before other opens inside =>
      rw [List.append_assoc, List.cons_append]
      exact before.append (.group other opens closes inside .nil)

end

/-! ### Tokens that do not run -/

/-- The container that a token closes. Inside a quotation a square bracket waits. -/
def Token.closes (m : Machine) (t : Token) : Option Bracket :=
  match t.lexeme with
  | .closing bracket => if bracket = .array ∧ 0 < m.openQuotes then none else some bracket
  | _ => none

theorem Token.closes_eq_some {m : Machine} {t : Token} {bracket : Bracket}
    (closes : t.closes m = some bracket) :
    t.lexeme = .closing bracket ∧ ¬ (bracket = .array ∧ 0 < m.openQuotes) := by
  unfold Token.closes at closes
  split at closes
  · next lexeme =>
    split at closes
    · cases closes
    · next now =>
      cases closes
      exact ⟨lexeme, now⟩
  · cases closes

theorem Token.closed_of_closes {m : Machine} {t : Token} (closes : t.closes m = none) :
    t.lexeme.closed = [] := by
  unfold Token.closes at closes
  split at closes
  · next bracket lexeme =>
    split at closes
    · next waits =>
      rw [lexeme, waits.1]
      rfl
    · cases closes
  · next other =>
    unfold Lexeme.closed
    split
    · next bracket lexeme => exact absurd lexeme (other bracket)
    · rfl

/-- What is made of the values in a container, and the identity that is next after it. -/
inductive Contained (id : Nat) (values : List Value) : Bracket → Value → Nat → Prop
  | array : Contained id values .array (.array id values) (id + 1)
  | quote : Contained id values .quote (.quote id values) (id + 1)
  | params {signature : Signature} : Signature.ofValues values = .ok signature →
      Contained id values .params (.signature signature) id

namespace Machine

/-- The machine has counted what a token opens. -/
def entered (m : Machine) (t : Token) : Machine :=
  match t.lexeme with
  | .opening bracket => m.counted bracket (· + 1)
  | _ => m

/-- A token has left one value, or put one in the place of the container that it closes. Apart from
that it has been counted. -/
inductive Gathers (m : Machine) (t : Token) (rest : List Token) : Machine → Prop
  | pushes : t.closes m = none → Gathers m t rest
      { m.entered t with
        frames := Stack.empty.push (.program rest)
        origin := t.origin
        operands := m.operands.push (t.content m.registry)
        checkpoints := m.checkpoints + 1 }
  | closes {bracket values below value next items} : t.closes m = some bracket →
      m.operands.items.toList = values.reverse ++ .marker (Exec.openingMarker bracket) :: below →
      (∀ v ∈ values, Exec.isMarker (Exec.openingMarker bracket) v = false) →
      Contained m.nextId values bracket value next → items.toList = value :: below →
      Gathers m t rest
        { m.counted bracket (· - 1) with
          frames := Stack.empty.push (.program rest)
          origin := t.origin
          operands := ⟨items, m.operands.floors⟩
          nextId := next
          checkpoints := m.checkpoints + 1 }

/-- The step of a machine that takes up tokens without running anything. -/
inductive Withholds (m : Machine) : List Token → Prop
  | takes {t rest m'} : m.frames.toList = [.program (t :: rest)] → m.step = (.checkpoint, m') →
      m.Gathers t rest m' → Withholds m (t :: rest)
  /-- A closing bracket that finds no container, or no signature in it. -/
  | refuses {t rest e m'} : m.frames.toList = [.program (t :: rest)] →
      (t.closes m).isSome = true → m.step = (.failed e, m') → m'.scopes = m.scopes →
      m'.operands.floors = m.operands.floors → Withholds m (t :: rest)
  | ends : m.frames.toList = [.program []] ∨ m.frames.toList = [] →
      m.step = (.failed (m.locate .unclosed), m.abort) → Withholds m []

variable {m m' : Machine} {t : Token} {rest : List Token} {bracket : Bracket}

theorem token_of_closes (rest : List Token) (none : t.closes m = none)
    (named : ∀ text, t.lexeme = .name text → m.isCollecting = true) :
    Exec.token t (m.load rest) = .ok () { (m.entered t).load rest with
      origin := t.origin, operands := m.operands.push (t.content m.registry) } := by
  by_cases free : t.lexeme.delimits = false
  · have same : m.entered t = m := by
      unfold entered
      split
      · next bracket lexeme =>
        rw [lexeme] at free
        cases bracket <;> first | rfl | cases free
      · rfl
    rw [same]
    apply token_eq_push free named
    intro lexeme
    simp only [Token.closes, lexeme] at none
    split at none
    · next waits => exact waits.2
    · cases none
  · cases lexeme : t.lexeme with
    | opening bracket =>
      simp only [Exec.token, Token.content, entered, lexeme]
      cases bracket <;> rfl
    | closing bracket =>
      simp only [Token.closes, lexeme] at none
      split at none
      · next waits =>
        rw [lexeme, waits.1] at free
        exact absurd rfl free
      · cases none
    | _ =>
      rw [lexeme] at free
      exact absurd rfl free

/-- A closing bracket finds the topmost marker of its kind, or none. -/
theorem popContainer_cases (floors : m.operands.floors = []) (bracket : Bracket) :
    Exec.popContainer bracket m = .error (.error (.unmatched bracket.closing)) m ∨
      ∃ (values below : List Value) (s : Stack Value),
        m.operands.items.toList =
          values.reverse ++ .marker (Exec.openingMarker bracket) :: below ∧
        (∀ v ∈ values, Exec.isMarker (Exec.openingMarker bracket) v = false) ∧
        s.toList = below ∧
        Exec.popContainer bracket m = .ok values { m with operands := ⟨s, m.operands.floors⟩ } := by
  let isWanted := Exec.isMarker (Exec.openingMarker bracket)
  have read {v : Value} : (if isWanted v then some () else none) = none ↔ isWanted v = false := by
    simp
  rcases exists_split (fun v => if isWanted v then some () else none) m.operands.items.toList with
    missing | ⟨above, v, below, _, items, passed, found⟩
  · left
    have all : (m.operands.items.toList.take m.operands.accessible).takeWhile (!isWanted ·) =
        m.operands.items.toList.take m.operands.accessible := by
      apply List.takeWhile_eq_self_iff.2
      intro v member
      simp [read.1 (missing v (List.mem_of_mem_take member))]
    have short : ¬ (m.operands.items.toList.take m.operands.accessible).length <
        m.operands.accessible := by
      rw [List.length_take, Operands.accessible, Operands.floor, floors, Operands.count,
        ← m.operands.items.length_eq]
      simp
    simp only [Exec.popContainer, Operands.popUntil]
    rw [all, if_neg short]
  · right
    have wanted : v = .marker (Exec.openingMarker bracket) := by
      cases v with
      | marker k =>
        by_cases same : k = Exec.openingMarker bracket
        · rw [same]
        · simp [isWanted, Exec.isMarker, same] at found
      | _ => cases found
    subst wanted
    have items' : m.operands.items.toList =
        above.reverse.reverse ++ .marker (Exec.openingMarker bracket) :: below := by
      rw [List.reverse_reverse]
      exact items
    have free : ∀ v ∈ above.reverse, isWanted v = false :=
      fun v member => read.1 (passed v (List.mem_reverse.1 member))
    obtain ⟨s, lower, popped⟩ := popContainer_eq floors items' free
    exact ⟨above.reverse, below, s, items', free, lower, popped⟩

/-- What closing a container comes to. If something is wrong with it, only operands have changed. -/
inductive Closes (m : Machine) (bracket : Bracket) : EStateM.Result Signal Machine Unit → Prop
  | closed {values below value next} {s : Stack Value} : m.operands.items.toList =
        values.reverse ++ .marker (Exec.openingMarker bracket) :: below →
      (∀ v ∈ values, Exec.isMarker (Exec.openingMarker bracket) v = false) →
      Contained m.nextId values bracket value next → s.toList = value :: below →
      Closes m bracket (.ok () { m.counted bracket (· - 1) with
        operands := ⟨s, m.operands.floors⟩, nextId := next })
  | refused {e m'} : m'.frames = m.frames → m'.scopes = m.scopes →
      m'.operands.floors = m.operands.floors → Closes m bracket (.error (.error e) m')

theorem closes_closeContainer (floors : m.operands.floors = []) (bracket : Bracket) :
    m.Closes bracket (Exec.closeContainer bracket m) := by
  rcases popContainer_cases floors bracket with
    missing | ⟨values, below, s, items, free, lower, popped⟩
  · simp only [Exec.closeContainer, Bind.bind, EStateM.bind, missing]
    exact .refused rfl rfl rfl
  · have top (value : Value) : (s.push value).toList = value :: below := by
      rw [Stack.toList_push, lower]
    cases bracket with
    | array =>
      rw [closeContainer_array popped]
      exact .closed items free .array (top _)
    | quote =>
      rw [closeContainer_quote popped]
      exact .closed items free .quote (top _)
    | params =>
      cases read : Signature.ofValues values with
      | ok signature =>
        rw [closeContainer_params popped read]
        exact .closed items free (.params read) (top _)
      | error e =>
        simp only [Exec.closeContainer, Bind.bind, EStateM.bind, popped, read]
        exact .refused rfl rfl rfl

theorem eq_load {tokens : List Token} (calm : m.control = .none)
    (frames : m.frames.toList = [.program tokens]) : m = m.load tokens := by
  have same : m.frames = Stack.empty.push (.program tokens) := Stack.ext frames
  rw [load, ← same, ← calm]

/-- Without an attempt an error ends the run. -/
theorem interrupt_of_error {e : RuntimeError} (frames : m.frames.toList = [.program rest]) :
    m.interrupt (.error e) = (.failed (m.locate e), m.abort) := by
  apply raiseError_of_passed
  rw [frames]
  exact List.forall_mem_singleton.2 rfl

theorem abort_of_program (frames : m.frames.toList = [.program rest]) :
    m.abort.scopes = m.scopes ∧ m.abort.operands = m.operands := by
  rw [abort, frames]
  exact ⟨rfl, rfl⟩

theorem counted_eq (m : Machine) (bracket : Bracket) (count : Nat → Nat) :
    ∃ openQuotes openParams, m.counted bracket count = { m with openQuotes, openParams } := by
  cases bracket <;> exact ⟨_, _, rfl⟩

theorem entered_eq (m : Machine) (t : Token) :
    ∃ openQuotes openParams, m.entered t = { m with openQuotes, openParams } := by
  unfold entered
  split
  · exact m.counted_eq _ _
  · exact ⟨_, _, rfl⟩

/-- A token that does not run is gathered, or it is a closing bracket and the run has failed. -/
theorem gathers_or_fails (calm : m.control = .none) (floors : m.operands.floors = [])
    (frames : m.frames.toList = [.program (t :: rest)])
    (named : ∀ text, t.lexeme = .name text → m.isCollecting = true) :
    (∃ m', m.pass = (some .checkpoint, m') ∧ m.Gathers t rest m') ∨
      ∃ e m', m.pass = (some (.failed e), m') ∧ (t.closes m).isSome = true ∧
        m'.scopes = m.scopes ∧ m'.operands.floors = m.operands.floors := by
  have loaded : m.pass = (m.load (t :: rest)).turn := by
    rw [pass_of_calm calm, ← eq_load calm frames]
  cases closes : t.closes m with
  | none =>
    have gathers : m.Gathers t rest _ := .pushes closes
    have ran := token_of_closes rest closes named
    obtain ⟨openQuotes, openParams, same⟩ := m.entered_eq t
    rw [same] at gathers ran
    rw [calm] at gathers
    exact .inl ⟨_, loaded.trans (ticks_of_token ran).2, gathers⟩
  | some bracket =>
    obtain ⟨lexeme, now⟩ := Token.closes_eq_some closes
    have ran := token_of_closing (m := m.load rest) lexeme now
    have closing := closes_closeContainer (m := { m.load rest with origin := t.origin }) floors
      bracket
    rw [← ran] at closing
    generalize outcome : Exec.token t (m.load rest) = x at closing
    cases closing with
    | closed items free contained top =>
      have gathers : m.Gathers t rest _ := .closes closes items free contained top
      have counted : ({ m.load rest with origin := t.origin } : Machine).counted bracket (· - 1) =
          { (m.counted bracket (· - 1)).load rest with origin := t.origin } := by
        cases bracket <;> rfl
      obtain ⟨openQuotes, openParams, same⟩ := m.counted_eq bracket (· - 1)
      rw [counted, same] at outcome
      rw [same, calm] at gathers
      exact .inl ⟨_, loaded.trans (ticks_of_token outcome).2, gathers⟩
    | @refused e m' frames' scopes floors' =>
      right
      have program : m'.frames.toList = [.program rest] := congrArg Stack.toList frames'
      have failed := turn_of_token_error outcome
      rw [interrupt_of_error program] at failed
      obtain ⟨scopes', operands⟩ := abort_of_program program
      refine ⟨_, _, loaded.trans failed, rfl, scopes'.trans scopes, ?_⟩
      rw [operands]
      exact floors'

end Machine

end Catena
