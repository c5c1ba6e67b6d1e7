import Catena.Proofs.Settling

set_option autoImplicit false

/-!
Collecting. While a quotation or a parameter list is open, tokens leave values on the stack and
nothing runs; the closing bracket makes one value of them. `Collected` says which values a piece of
program becomes and which identities its quotations get, and a machine that meets the piece gets
there.
-/

namespace Catena

/-! ### Tokens that can be collected -/

def Lexeme.isSymbol : Lexeme → Bool
  | .sym _ | .define _ | .type _ => true
  | _ => false

/-- Whether the word begins or ends a container that collects. -/
def Lexeme.delimits : Lexeme → Bool
  | .opening .quote | .opening .params | .closing .quote | .closing .params => true
  | _ => false

/-- Names, each with an optional type after it, and after an arrow the types of the results. -/
inductive ParameterList : List Lexeme → Prop
  | nil : ParameterList []
  | name {text rest} : ParameterList rest → ParameterList (.name text :: rest)
  | typed {text type rest} : type.isSymbol = true → ParameterList rest →
      ParameterList (.name text :: type :: rest)
  | returns {rest} : (∀ type ∈ rest, type.isSymbol = true) → ParameterList (.arrow :: rest)

/-- Curly brackets and parentheses are nested, and there are parameter lists between parentheses.
Nothing is asked of square brackets. -/
inductive Quotable : List Token → Prop
  | nil : Quotable []
  | plain {t rest} : t.lexeme.delimits = false → Quotable rest → Quotable (t :: rest)
  | quote {opening closing inner rest} : opening.lexeme = .opening .quote →
      closing.lexeme = .closing .quote → Quotable inner → Quotable rest →
      Quotable (opening :: (inner ++ closing :: rest))
  | params {opening closing inner rest} : opening.lexeme = .opening .params →
      closing.lexeme = .closing .params → ParameterList (inner.map Token.lexeme) → Quotable rest →
      Quotable (opening :: (inner ++ closing :: rest))

/-- What a token leaves on the stack when it is collected. -/
def Token.content (r : Registry) (t : Token) : Value :=
  match t.lexeme with
  | .int n => .int n
  | .float x => .float x
  | .str text => .str text
  | .bool b => .bool b
  | .nil => .nil
  | .sym text | .define text | .type text => .sym text
  | .arrow => .marker .arrow
  | .opening bracket => .marker (Exec.openingMarker bracket)
  | .closing _ => .marker .arrayClose
  | .name text =>
    match r.get? text with
    | some b => .op (.builtin b) t.origin
    | none => .ref text t.origin

/-- The tokens become these values, and their quotations get the identities from `k` up to `k'`. -/
inductive Collected (r : Registry) : Nat → List Token → List Value → Nat → Prop
  | nil {k} : Collected r k [] [] k
  | plain {k k' t rest code} : t.lexeme.delimits = false → Collected r k rest code k' →
      Collected r k (t :: rest) (t.content r :: code) k'
  | quote {k k₁ k' opening closing inner rest body code} : opening.lexeme = .opening .quote →
      closing.lexeme = .closing .quote → Collected r k inner body k₁ →
      Collected r (k₁ + 1) rest code k' →
      Collected r k (opening :: (inner ++ closing :: rest)) (.quote k₁ body :: code) k'
  | params {k k' opening closing inner rest signature code} : opening.lexeme = .opening .params →
      closing.lexeme = .closing .params → ParameterList (inner.map Token.lexeme) →
      Signature.ofValues (inner.map (Token.content r)) = .ok signature →
      Collected r k rest code k' →
      Collected r k (opening :: (inner ++ closing :: rest)) (.signature signature :: code) k'

theorem Token.content_of_isSymbol {r : Registry} {t : Token} (symbol : t.lexeme.isSymbol = true) :
    ∃ text, t.content r = .sym text := by
  rw [Token.content]
  cases lexeme : t.lexeme with
  | sym text => exact ⟨text, rfl⟩
  | define text => exact ⟨text, rfl⟩
  | type text => exact ⟨text, rfl⟩
  | _ =>
    rw [lexeme] at symbol
    cases symbol

theorem Token.parameterName?_content {r : Registry} {t : Token} {text : String}
    (lexeme : t.lexeme = .name text) :
    ∃ name, ∀ seen rest, Signature.readAfter seen (t.content r :: rest) =
      Signature.readAfter (⟨name, none⟩ :: seen) rest := by
  rw [Token.content, lexeme]
  simp only
  cases r.get? text with
  | some b => exact ⟨b.name, fun _ _ => rfl⟩
  | none => exact ⟨text, fun _ _ => rfl⟩

theorem returnTypes_content {r : Registry} {tokens : List Token}
    (symbols : ∀ t ∈ tokens, t.lexeme.isSymbol = true) :
    ∃ types, Signature.returnTypes (tokens.map (Token.content r)) = .ok types := by
  induction tokens with
  | nil => exact ⟨[], rfl⟩
  | cons t tokens ih =>
    obtain ⟨symbol, symbols⟩ := List.forall_mem_cons.1 symbols
    obtain ⟨types, read⟩ := ih symbols
    obtain ⟨text, content⟩ := Token.content_of_isSymbol (r := r) symbol
    refine ⟨text :: types, ?_⟩
    rw [List.map_cons, content, Signature.returnTypes, read]

/-- A parameter list is read whatever the builtins are. -/
theorem ParameterList.readAfter {lexemes : List Lexeme} (list : ParameterList lexemes)
    {tokens : List Token} (lexemes_eq : tokens.map Token.lexeme = lexemes) (r : Registry)
    (seen : List Param) :
    ∃ signature, Signature.readAfter seen (tokens.map (Token.content r)) = .ok signature := by
  induction list generalizing tokens seen with
  | nil =>
    rw [List.map_eq_nil_iff] at lexemes_eq
    subst lexemes_eq
    exact ⟨_, rfl⟩
  | name _ ih =>
    obtain ⟨t, tokens, rfl, lexeme, rest⟩ := List.map_eq_cons_iff.1 lexemes_eq
    obtain ⟨name, read⟩ := Token.parameterName?_content (r := r) lexeme
    obtain ⟨signature, ok⟩ := ih rest (⟨name, none⟩ :: seen)
    exact ⟨signature, (read seen _).trans ok⟩
  | typed symbol _ ih =>
    obtain ⟨t, _, rfl, lexeme, rest⟩ := List.map_eq_cons_iff.1 lexemes_eq
    obtain ⟨u, tokens, rfl, rfl, after⟩ := List.map_eq_cons_iff.1 rest
    obtain ⟨name, read⟩ := Token.parameterName?_content (r := r) lexeme
    obtain ⟨type, content⟩ := Token.content_of_isSymbol (r := r) symbol
    obtain ⟨signature, ok⟩ := ih after (⟨name, some type⟩ :: seen)
    refine ⟨signature, (read seen _).trans ?_⟩
    rw [List.map_cons, content]
    exact ok
  | returns symbols =>
    obtain ⟨t, tokens, rfl, lexeme, rfl⟩ := List.map_eq_cons_iff.1 lexemes_eq
    obtain ⟨types, read⟩ := returnTypes_content (r := r) (List.forall_mem_map.1 symbols)
    have arrow : t.content r = .marker .arrow := by rw [Token.content, lexeme]
    refine ⟨⟨seen.reverse, some types⟩, ?_⟩
    rw [List.map_cons, arrow, Signature.readAfter, read]

theorem ParameterList.declares {lexemes : List Lexeme} (list : ParameterList lexemes) :
    ∀ l ∈ lexemes, l.delimits = false ∧ l ≠ .closing .array := by
  have symbol {l : Lexeme} (isSymbol : l.isSymbol = true) :
      l.delimits = false ∧ l ≠ .closing .array := by
    cases l <;> first | exact ⟨rfl, nofun⟩ | cases isSymbol
  induction list with
  | nil => exact List.forall_mem_nil _
  | name _ ih => exact List.forall_mem_cons.2 ⟨⟨rfl, nofun⟩, ih⟩
  | typed isSymbol _ ih =>
    exact List.forall_mem_cons.2 ⟨⟨rfl, nofun⟩, List.forall_mem_cons.2 ⟨symbol isSymbol, ih⟩⟩
  | returns symbols =>
    exact List.forall_mem_cons.2 ⟨⟨rfl, nofun⟩, fun l member => symbol (symbols l member)⟩

theorem Quotable.collected {tokens : List Token} (quotable : Quotable tokens) (r : Registry)
    (k : Nat) : ∃ code k', Collected r k tokens code k' := by
  induction quotable generalizing k with
  | nil => exact ⟨[], k, .nil⟩
  | plain free _ ih =>
    obtain ⟨code, k', rest⟩ := ih k
    exact ⟨_, k', .plain free rest⟩
  | quote opens closes _ _ ihInner ih =>
    obtain ⟨body, k₁, inner⟩ := ihInner k
    obtain ⟨code, k', rest⟩ := ih (k₁ + 1)
    exact ⟨_, k', .quote opens closes inner rest⟩
  | params opens closes list _ ih =>
    obtain ⟨signature, read⟩ := list.readAfter rfl r []
    obtain ⟨code, k', rest⟩ := ih k
    exact ⟨_, k', .params opens closes list read rest⟩

theorem Collected.le {r : Registry} {k k' : Nat} {tokens : List Token} {code : List Value}
    (collected : Collected r k tokens code k') : k ≤ k' := by
  induction collected with
  | nil => exact Nat.le_refl _
  | plain _ _ ih => exact ih
  | quote _ _ _ _ inner rest => omega
  | params _ _ _ _ _ ih => exact ih

/-- Opening markers of quotations and parameter lists are gone when these are closed. -/
def Value.isOpening (v : Value) : Bool :=
  Exec.isMarker .quoteOpen v || Exec.isMarker .paramsOpen v

theorem Token.isOpening_content {r : Registry} {t : Token} (free : t.lexeme.delimits = false) :
    (t.content r).isOpening = false := by
  rw [Token.content]
  cases lexeme : t.lexeme with
  | opening bracket =>
    rw [lexeme] at free
    cases bracket with
    | array => rfl
    | quote => cases free
    | params => cases free
  | name text =>
    simp only
    cases r.get? text <;> rfl
  | _ => rfl

theorem Collected.isOpening {r : Registry} {k k' : Nat} {tokens : List Token} {code : List Value}
    (collected : Collected r k tokens code k') : ∀ v ∈ code, v.isOpening = false := by
  induction collected with
  | nil => exact List.forall_mem_nil _
  | plain free _ ih => exact List.forall_mem_cons.2 ⟨Token.isOpening_content free, ih⟩
  | quote _ _ _ _ _ ih => exact List.forall_mem_cons.2 ⟨rfl, ih⟩
  | params _ _ _ _ _ ih => exact List.forall_mem_cons.2 ⟨rfl, ih⟩

theorem Token.content_same {q : Nat → Nat → Prop} {r s : Registry} (same : Registry.Same q r s)
    (t : Token) : (t.content r).Same q (t.content s) := by
  rw [Token.content, Token.content]
  cases t.lexeme with
  | name text =>
    have builtin : Option.Rel (Builtin.Same q) (Bindings.get? r text) (Bindings.get? s text) :=
      same.get? text
    simp only
    generalize Bindings.get? r text = x at builtin
    generalize Bindings.get? s text = y at builtin
    cases builtin with
    | none => exact .plain rfl
    | some bc => exact .op (.builtin bc)
  | _ => exact .plain rfl

theorem Token.contents_same {q : Nat → Nat → Prop} {r s : Registry} (same : Registry.Same q r s)
    (tokens : List Token) :
    SameAll q (tokens.map (Token.content r)) (tokens.map (Token.content s)) := by
  refine sameAll_iff.2 (List.forall₂_map_left_iff.2 (List.forall₂_map_right_iff.2 ?_))
  exact List.forall₂_same.2 fun t _ => Token.content_same same t

/-- Another machine makes the same of the tokens, up to the identities that it gives out. -/
theorem Collected.shift {s : Registry} {k k' : Nat} {tokens : List Token} {b : List Value}
    (collected : Collected s k tokens b k') (r : Registry) (l : Nat) :
    ∃ a, Collected r l tokens a (l + (k' - k)) ∧
      ∀ q, Registry.Same q r s → (∀ d < k' - k, q (l + d) (k + d)) → SameAll q a b := by
  induction collected generalizing l with
  | @nil k =>
    rw [Nat.sub_self]
    exact ⟨[], .nil, fun _ _ _ => .nil⟩
  | plain free _ ih =>
    obtain ⟨a, rest, same⟩ := ih l
    exact ⟨_, .plain free rest, fun q builtins pairs =>
      .cons (Token.content_same builtins _) (same q builtins pairs)⟩
  | @quote k k₁ k' opening closing inner rest body code opens closes inside after ihInner ih =>
    have le := inside.le
    have le' := after.le
    obtain ⟨body', inside', sameBody⟩ := ihInner l
    obtain ⟨code', after', sameCode⟩ := ih (l + (k₁ - k) + 1)
    have last : l + (k₁ - k) + 1 + (k' - (k₁ + 1)) = l + (k' - k) := by omega
    rw [last] at after'
    refine ⟨_, .quote opens closes inside' after', fun q builtins pairs => .cons (.quote ?_ ?_) ?_⟩
    · have own := pairs (k₁ - k) (by omega)
      rwa [show k + (k₁ - k) = k₁ by omega] at own
    · exact sameBody q builtins fun d lt => pairs d (by omega)
    · refine sameCode q builtins fun d lt => ?_
      have pair := pairs (k₁ - k + 1 + d) (by omega)
      rwa [show l + (k₁ - k + 1 + d) = l + (k₁ - k) + 1 + d by omega,
        show k + (k₁ - k + 1 + d) = k₁ + 1 + d by omega] at pair
  | @params k k' opening closing inner rest signature code opens closes list read _ ih =>
    obtain ⟨signature', read'⟩ := list.readAfter rfl r []
    obtain ⟨a, rest, same⟩ := ih l
    refine ⟨_, .params opens closes list read' rest, fun q builtins pairs => .cons ?_ ?_⟩
    · have equal := (Token.contents_same builtins inner).ofValues
      have read' : Signature.ofValues (inner.map (Token.content r)) = .ok signature' := read'
      rw [read, read'] at equal
      cases equal
      exact .plain rfl
    · exact same q builtins pairs

/-! ### Machines that collect -/

/-- The machine has taken values from its program and given out identities up to `next`. -/
inductive Machine.Took (m : Machine) : List Value → Nat → Machine → Prop
  | intro {values next items origin checkpoints} :
      items.toList = values.reverse ++ m.operands.items.toList →
      Took m values next
        { m with operands := ⟨items, m.operands.floors⟩, nextId := next, origin, checkpoints }

/-- A step that is one turn. -/
def Machine.Ticks (m m' : Machine) : Prop := m.control = .none ∧ m.turn = (some .checkpoint, m')

/-- A program that begins with these tokens makes the machine take these values. -/
def Machine.Takes (m : Machine) (tokens : List Token) (values : List Value) (next : Nat) : Prop :=
  ∀ rest, ∃ m', m.Took values next m' ∧
    Relation.ReflTransGen Ticks (m.load (tokens ++ rest)) (m'.load rest)

namespace Machine

variable {m m₁ m' : Machine} {t : Token} {rest : List Token}

theorem Took.append {a b : List Value} {k k' : Nat} (took : m.Took a k m₁)
    (took' : m₁.Took b k' m') : m.Took (a ++ b) k' m' := by
  cases took with
  | intro first =>
    cases took' with
    | intro second =>
      refine .intro ?_
      rw [second, List.reverse_append, List.append_assoc]
      exact congrArg (b.reverse ++ ·) first

theorem Ticks.moves (ticks : m.Ticks m') : m.Moves m' :=
  .pass (by simp [ticks.1]) ((pass_of_calm ticks.1).trans ticks.2) rfl

theorem moves_of_ticks (ticks : Relation.TransGen Ticks m m') : Relation.TransGen Moves m m' :=
  ticks.lift id fun _ _ => Ticks.moves

theorem advance_load (t : Token) (rest : List Token) (m : Machine) :
    Exec.advance (.program (t :: rest)) .empty (m.load (t :: rest)) =
      (Exec.token t >>= fun _ => pure Tick.checkpoint) (m.load rest) :=
  rfl

theorem turn_load (t : Token) (rest : List Token) (m : Machine) :
    (m.load (t :: rest)).turn =
      afterAdvance ((Exec.token t >>= fun _ => pure Tick.checkpoint) (m.load rest)) :=
  rfl

section

variable (ran : Exec.token t (m.load rest) = .ok () m')
include ran

theorem advance_of_token :
    Exec.advance (.program (t :: rest)) .empty (m.load (t :: rest)) = .ok .checkpoint m' := by
  rw [advance_load]
  simp only [Bind.bind, EStateM.bind, ran]
  rfl

theorem ticks_of_token : Ticks (m.load (t :: rest)) m'.checkpoint.2 :=
  ⟨rfl, congrArg afterAdvance (advance_of_token ran)⟩

theorem moves_of_token : Moves (m.load (t :: rest)) m'.checkpoint.2 :=
  (ticks_of_token ran).moves

end

theorem MeetsLimit.token (meets : (m.load (t :: rest)).MeetsLimit)
    (ran : Exec.token t (m.load rest) = .ok () m') : m'.checkpoint.2.MeetsLimit :=
  meets.after (moves_of_token ran) (not_refuses rfl (advance_of_token ran))

theorem turn_of_token_error {signal : Signal}
    (ran : Exec.token t (m.load rest) = .error signal m') :
    (m.load (t :: rest)).turn = ending (m'.interrupt signal) := by
  rw [turn_load]
  simp only [Bind.bind, EStateM.bind, ran]
  rfl

/-- A token is only pushed if it is a literal or collected. -/
theorem token_eq_push (free : t.lexeme.delimits = false)
    (named : ∀ text, t.lexeme = .name text → m.isCollecting = true)
    (quoted : t.lexeme = .closing .array → 0 < m.openQuotes) :
    Exec.token t (m.load rest) = .ok () { m.load rest with
      origin := t.origin, operands := m.operands.push (t.content m.registry) } := by
  simp only [Exec.token, Token.content]
  cases lexeme : t.lexeme with
  | opening bracket =>
    rw [lexeme] at free
    cases bracket with
    | array => rfl
    | quote => cases free
    | params => cases free
  | closing bracket =>
    rw [lexeme] at free quoted
    cases bracket with
    | array =>
      have waits : Bracket.array = .array ∧ 0 < (m.load rest).openQuotes := ⟨rfl, quoted rfl⟩
      change (if Bracket.array = .array ∧ 0 < (m.load rest).openQuotes then
        Exec.push (.marker .arrayClose) else Exec.closeContainer .array) _ = _
      rw [if_pos waits]
      rfl
    | quote => cases free
    | params => cases free
  | name text =>
    have collects : (m.load rest).isCollecting = true := named text lexeme
    change (if (m.load rest).isCollecting then Exec.push _ else Exec.resolve text) _ = _
    rw [if_pos collects]
    rfl
  | _ => rfl

theorem took_token (free : t.lexeme.delimits = false)
    (named : ∀ text, t.lexeme = .name text → m.isCollecting = true)
    (quoted : t.lexeme = .closing .array → 0 < m.openQuotes) (rest : List Token) :
    ∃ m', m.Took [t.content m.registry] m.nextId m' ∧
      Relation.TransGen Ticks (m.load (t :: rest)) (m'.load rest) := by
  have items : (m.operands.items.push (t.content m.registry)).toList =
      [t.content m.registry].reverse ++ m.operands.items.toList := rfl
  exact ⟨_, .intro items, .single (ticks_of_token (token_eq_push free named quoted))⟩

theorem takes_plain (free : t.lexeme.delimits = false) (collecting : m.isCollecting = true)
    (quoted : t.lexeme = .closing .array → 0 < m.openQuotes) :
    m.Takes [t] [t.content m.registry] m.nextId := by
  intro rest
  obtain ⟨m', took, ticks⟩ := took_token free (fun _ _ => collecting) quoted rest
  exact ⟨m', took, ticks.to_reflTransGen⟩

theorem Takes.append {a b : List Token} {u v : List Value} {k k' : Nat} (takes : m.Takes a u k)
    (next : ∀ m₁, m.Took u k m₁ → m₁.Takes b v k') : m.Takes (a ++ b) (u ++ v) k' := by
  intro rest
  obtain ⟨m₁, took, reaches⟩ := takes (b ++ rest)
  obtain ⟨m', took', reaches'⟩ := next m₁ took rest
  refine ⟨m', took.append took', ?_⟩
  rw [List.append_assoc]
  exact reaches.trans reaches'

/-- A closing bracket finds the opening one, under the values that have come since. -/
theorem popContainer_eq {bracket : Bracket} {values below : List Value}
    (floors : m.operands.floors = [])
    (items : m.operands.items.toList =
      values.reverse ++ .marker (Exec.openingMarker bracket) :: below)
    (free : ∀ v ∈ values, Exec.isMarker (Exec.openingMarker bracket) v = false) :
    ∃ s : Stack Value, s.toList = below ∧
      Exec.popContainer bracket m = .ok values { m with operands := ⟨s, m.operands.floors⟩ } := by
  have all : m.operands.accessible = m.operands.items.toList.length := by
    rw [Operands.accessible, Operands.floor, floors, Stack.length_eq]
    rfl
  have found : (m.operands.items.toList.take m.operands.accessible).takeWhile
      (!Exec.isMarker (Exec.openingMarker bracket) ·) = values.reverse := by
    rw [all, List.take_length, items, List.takeWhile_append_of_pos, List.takeWhile_cons_of_neg,
      List.append_nil]
    · simp [Exec.isMarker]
    · intro v member
      simp [free v (List.mem_reverse.1 member)]
  refine ⟨m.operands.items.drop (values.length + 1), ?_, ?_⟩
  · rw [Stack.toList_drop, items, ← List.singleton_append, ← List.append_assoc]
    exact List.drop_left' (by simp)
  · have fewer : values.length < m.operands.accessible := by
      rw [all, items, List.length_append, List.length_reverse, List.length_cons]
      omega
    simp only [Exec.popContainer, Operands.popUntil, found, List.length_reverse, if_pos fewer,
      List.reverse_reverse]

/-- Containers other than arrays are counted while they are open. -/
def counted (m : Machine) (bracket : Bracket) (count : Nat → Nat) : Machine :=
  match bracket with
  | .array => m
  | .quote => { m with openQuotes := count m.openQuotes }
  | .params => { m with openParams := count m.openParams }

/-- The machine after an opening bracket. -/
def within (m : Machine) (bracket : Bracket) (origin : Origin) : Machine :=
  { m.counted bracket (· + 1) with
    origin
    operands := m.operands.push (.marker (Exec.openingMarker bracket))
    checkpoints := m.checkpoints + 1 }

theorem ticks_within {bracket : Bracket} (opens : t.lexeme = .opening bracket) :
    Ticks (m.load (t :: rest)) ((m.within bracket t.origin).load rest) := by
  have ran : Exec.token t (m.load rest) =
      .ok () { (m.within bracket t.origin).load rest with checkpoints := m.checkpoints } := by
    simp only [Exec.token, opens]
    cases bracket <;> rfl
  have ticks := ticks_of_token ran
  cases bracket <;> exact ticks

theorem closeContainer_array {values : List Value} {s : Operands}
    (popped : Exec.popContainer .array m = .ok values { m with operands := s }) :
    Exec.closeContainer .array m = .ok () { m.counted .array (· - 1) with
      operands := s.push (.array m.nextId values), nextId := m.nextId + 1 } := by
  simp only [Exec.closeContainer, Bind.bind, EStateM.bind, popped]
  rfl

theorem closeContainer_quote {values : List Value} {s : Operands}
    (popped : Exec.popContainer .quote m = .ok values { m with operands := s }) :
    Exec.closeContainer .quote m = .ok () { m.counted .quote (· - 1) with
      operands := s.push (.quote m.nextId values), nextId := m.nextId + 1 } := by
  simp only [Exec.closeContainer, Bind.bind, EStateM.bind, popped]
  rfl

theorem closeContainer_params {values : List Value} {s : Operands} {signature : Signature}
    (popped : Exec.popContainer .params m = .ok values { m with operands := s })
    (read : Signature.ofValues values = .ok signature) :
    Exec.closeContainer .params m = .ok () { m.counted .params (· - 1) with
      operands := s.push (.signature signature), nextId := m.nextId } := by
  simp only [Exec.closeContainer, Bind.bind, EStateM.bind, popped, read]
  rfl

theorem token_of_closing {bracket : Bracket} (closes : t.lexeme = .closing bracket)
    (now : ¬ (bracket = .array ∧ 0 < m.openQuotes)) :
    Exec.token t m = Exec.closeContainer bracket { m with origin := t.origin } := by
  simp only [Exec.token, closes]
  change (if bracket = .array ∧ 0 < m.openQuotes then Exec.push (.marker .arrayClose)
    else Exec.closeContainer bracket) _ = _
  rw [if_neg now]

variable {opening closing : Token} {inner : List Token} {k₁ : Nat} {body : List Value}

/-- A closing bracket puts one value in the place of those that have come since the opening one. -/
theorem took_group {bracket : Bracket} {value : Value} {k' : Nat}
    (opens : opening.lexeme = .opening bracket) (closes : closing.lexeme = .closing bracket)
    (now : ¬ (bracket = .array ∧ 0 < m.openQuotes)) (floors : m.operands.floors = [])
    (inside : (m.within bracket opening.origin).Takes inner body k₁)
    (free : ∀ v ∈ body, Exec.isMarker (Exec.openingMarker bracket) v = false)
    (closed : ∀ (m₁ : Machine) (s : Operands), m₁.nextId = k₁ →
      Exec.popContainer bracket m₁ = .ok body { m₁ with operands := s } →
      Exec.closeContainer bracket m₁ = .ok () { m₁.counted bracket (· - 1) with
        operands := s.push value, nextId := k' }) (rest : List Token) :
    ∃ m', m.Took [value] k' m' ∧
      Relation.TransGen Ticks (m.load (opening :: (inner ++ closing :: rest))) (m'.load rest) := by
  obtain ⟨m₁, took, reaches⟩ := inside (closing :: rest)
  have first : Ticks (m.load (opening :: (inner ++ closing :: rest)))
      ((m.within bracket opening.origin).load (inner ++ closing :: rest)) := ticks_within opens
  cases took with
  | @intro items origin checkpoints found =>
    let ready : Machine :=
      { (m.within bracket opening.origin).load rest with
        operands := ⟨items, m.operands.floors⟩
        nextId := k₁
        origin := closing.origin
        checkpoints }
    obtain ⟨s, below, popped⟩ : ∃ s : Stack Value, s.toList = m.operands.items.toList ∧
        Exec.popContainer bracket ready =
          .ok body { ready with operands := ⟨s, m.operands.floors⟩ } :=
      popContainer_eq floors found free
    let after : Machine :=
      { m with
        operands := ⟨s.push value, m.operands.floors⟩
        nextId := k'
        origin := closing.origin
        checkpoints }
    have ran : Exec.token closing (Machine.load { m.within bracket opening.origin with
        operands := ⟨items, m.operands.floors⟩, nextId := k₁, origin, checkpoints } rest) =
        .ok () (after.load rest) := by
      refine (token_of_closing closes ?_).trans ((closed ready _ rfl popped).trans ?_)
      · rintro ⟨rfl, quoted⟩
        exact now ⟨rfl, quoted⟩
      · cases bracket <;> rfl
    have items : (s.push value).toList = [value].reverse ++ m.operands.items.toList := by
      rw [Stack.toList_push, below]
      rfl
    exact ⟨_, .intro items, .head' first (reaches.tail (ticks_of_token ran))⟩

theorem took_quote (opens : opening.lexeme = .opening .quote)
    (closes : closing.lexeme = .closing .quote) (floors : m.operands.floors = [])
    (inside : ∀ m₁ : Machine, m₁.registry = m.registry → m₁.nextId = m.nextId →
      m₁.operands.floors = [] → 0 < m₁.openQuotes → m₁.Takes inner body k₁)
    (free : ∀ v ∈ body, v.isOpening = false) (rest : List Token) :
    ∃ m', m.Took [.quote k₁ body] (k₁ + 1) m' ∧
      Relation.TransGen Ticks (m.load (opening :: (inner ++ closing :: rest))) (m'.load rest) := by
  have inside := inside (m.within .quote opening.origin) rfl rfl floors (Nat.succ_pos _)
  refine took_group opens closes (fun waits => by cases waits.1) floors inside ?_ ?_ rest
  · exact fun v member => (Bool.or_eq_false_iff.1 (free v member)).1
  · rintro m₁ s rfl popped
    exact closeContainer_quote popped

theorem takes_nil (m : Machine) : m.Takes [] [] m.nextId :=
  fun _ => ⟨m, .intro rfl, .refl⟩

theorem takes_declarations (collecting : m.isCollecting = true)
    (declares : ∀ t ∈ inner, t.lexeme.delimits = false ∧ t.lexeme ≠ .closing .array) :
    m.Takes inner (inner.map (Token.content m.registry)) m.nextId := by
  induction inner generalizing m with
  | nil => exact m.takes_nil
  | cons t inner ih =>
    obtain ⟨⟨free, other⟩, declares⟩ := List.forall_mem_cons.1 declares
    refine (takes_plain free collecting fun closes => absurd closes other).append fun m₁ took => ?_
    cases took with
    | intro => exact ih collecting declares

theorem took_params {signature : Signature} (opens : opening.lexeme = .opening .params)
    (closes : closing.lexeme = .closing .params) (floors : m.operands.floors = [])
    (list : ParameterList (inner.map Token.lexeme))
    (read : Signature.ofValues (inner.map (Token.content m.registry)) = .ok signature)
    (rest : List Token) :
    ∃ m', m.Took [.signature signature] m.nextId m' ∧
      Relation.TransGen Ticks (m.load (opening :: (inner ++ closing :: rest))) (m'.load rest) := by
  have declares : ∀ t ∈ inner, t.lexeme.delimits = false ∧ t.lexeme ≠ .closing .array :=
    fun t member => list.declares _ (List.mem_map_of_mem member)
  have collecting : (m.within .params opening.origin).isCollecting = true := by
    simp [within, counted, isCollecting]
  have inside := takes_declarations collecting declares
  refine took_group opens closes (fun waits => by cases waits.1) floors inside ?_ ?_ rest
  · intro v member
    obtain ⟨t, inside, rfl⟩ := List.mem_map.1 member
    exact (Bool.or_eq_false_iff.1 (Token.isOpening_content (declares t inside).1)).2
  · rintro m₁ s same popped
    have closed := closeContainer_params popped read
    rw [same] at closed
    exact closed

theorem Takes.group {value : Value} {k' : Nat}
    (taken : ∀ rest, ∃ m', m.Took [value] k' m' ∧
      Relation.TransGen Ticks (m.load (opening :: (inner ++ closing :: rest))) (m'.load rest)) :
    m.Takes (opening :: (inner ++ [closing])) [value] k' := by
  intro rest
  obtain ⟨m', took, ticks⟩ := taken rest
  refine ⟨m', took, ?_⟩
  rw [List.cons_append, List.append_assoc, List.singleton_append]
  exact ticks.to_reflTransGen

end Machine

/-- An open quotation takes what the tokens become. -/
theorem Collected.takes {r : Registry} {k k' : Nat} {tokens : List Token} {code : List Value}
    (collected : Collected r k tokens code k') :
    ∀ m : Machine, m.registry = r → m.nextId = k → m.operands.floors = [] → 0 < m.openQuotes →
      m.Takes tokens code k' := by
  induction collected with
  | nil =>
    rintro m - rfl - -
    exact m.takes_nil
  | plain free _ ih =>
    rintro m rfl rfl floors quoted
    have collecting : m.isCollecting = true := by simp [Machine.isCollecting, quoted]
    refine (Machine.takes_plain free collecting fun _ => quoted).append fun m₁ took => ?_
    cases took with
    | intro => exact ih _ rfl rfl floors quoted
  | @quote _ _ _ opening closing inner rest body _ opens closes inside _ ihInner ih =>
    rintro m rfl rfl floors quoted
    have group := Machine.Takes.group
      (Machine.took_quote opens closes floors ihInner inside.isOpening)
    have whole := group.append (b := rest) fun m₁ took => by
      cases took with
      | intro => exact ih _ rfl rfl floors quoted
    rwa [List.cons_append, List.append_assoc, List.singleton_append] at whole
  | @params _ _ opening closing inner rest signature _ opens closes list read _ ih =>
    rintro m rfl rfl floors quoted
    have group := Machine.Takes.group (Machine.took_params opens closes floors list read)
    have whole := group.append (b := rest) fun m₁ took => by
      cases took with
      | intro => exact ih _ rfl rfl floors quoted
    rwa [List.cons_append, List.append_assoc, List.singleton_append] at whole

end Catena
